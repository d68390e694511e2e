import ChangeAudit.Proofs.Policy.History
import ChangeAudit.Proofs.Policy.Layer

/-!
# Returning to the defaults

A reset makes the policy of the stored defaults alone, so it succeeds exactly when they make one
(`StandsAlone`). A store is created so. Of all operations only an accepted secondary document
changes the defaults, and it is judged under the primary document, which can hide what is wrong with
it: after such a document the store has no way back to its defaults
(`reset_fails_under_hidden_secondary`). A secondary document accepted over an empty primary one
leaves the way open.
-/

namespace ChangeAudit.PolicyStore

/-- The stored defaults make a policy without the primary document. -/
def StandsAlone (s : PolicyStore) : Prop := ∃ p, policyOf s.defaults = .ok p

/-- The store with the policy of its defaults, and no primary document over them. -/
def cleared (s : PolicyStore) (p : Policy) : PolicyStore :=
  { s with primary := .emptyObject, live := ⟨p, chooseResolver s.resolver s.session p⟩ }

/-- What a reset does. -/
structure Resets (s : PolicyStore) : Prop where
  succeeds : s.reset.2 = .ok () ↔ s.StandsAlone
  installs : ∀ p, policyOf s.defaults = .ok p → s.reset = (s.cleared p, .ok ())
  fails : ∀ e, policyOf s.defaults = .error e → s.reset = (s, .error e)

/-- Every secondary document that the run accepted found an empty primary document. -/
def Uncovered (s : PolicyStore) (ops : List (FileArea × Operation)) : Prop :=
  ∀ before files source after, ops = before ++ (files, .loadSecondary source) :: after →
    ((s.run before).step files (.loadSecondary source)).2 = .ok () →
      (s.run before).primary = .emptyObject

/-! ## The defaults stay an object -/

theorem layered_isObject {d : Json} (h : d.IsObject) (es : List Entry) :
    (layered d es).IsObject := by
  induction es generalizing d with
  | nil => exact h
  | cons e es ih =>
    rw [layered_cons]
    apply ih
    cases told : e.secondary? with
    | none => simpa [layered, told] using h
    | some extra => simpa [layered, told] using Json.layer_isObject extra h

theorem Started.isObject {d : Json} {s : PolicyStore} (h : Started d s) : d.IsObject := by
  cases h with
  | standard => exact ⟨_, rfl⟩
  | withDefaults read made => exact PolicySource.read_isObject read

theorem Started.defaults_isObject {d : Json} {s : PolicyStore} (h : Started d s)
    (ops : List (FileArea × Operation)) : (s.run ops).defaults.IsObject := by
  rw [(h.consistent.run ops).2.defaults, h.fresh.1]
  exact layered_isObject h.isObject _

/-! ## One reset -/

/-- Over defaults that are an object, a reset makes the policy of the defaults. -/
theorem resets_of_isObject {s : PolicyStore} (h : s.defaults.IsObject) : s.Resets := by
  have alone : s.defaults.layer .emptyObject = s.defaults := Json.layer_object_nil h
  cases decoded : policyOf s.defaults with
  | ok p =>
    have made : s.materialize .emptyObject = .ok ⟨p, chooseResolver s.resolver s.session p⟩ :=
      materialize_of_policyOf (alone.symm ▸ decoded)
    have cleared : s.reset = (s.cleared p, .ok ()) := by
      simp only [reset, made, PolicyStore.cleared]
    refine ⟨⟨fun _ => ⟨p, decoded⟩, fun _ => by rw [cleared]⟩, ?_, ?_⟩
    · intro q same
      cases decoded.symm.trans same
      exact cleared
    · intro e failed
      cases decoded.symm.trans failed
  | error e =>
    have refused : s.reset = (s, .error e) := by
      simp only [reset, materialize, alone, decoded]
    refine ⟨⟨?_, ?_⟩, ?_, ?_⟩
    · intro succeeded
      rw [refused] at succeeded
      cases succeeded
    · rintro ⟨p, made⟩
      cases decoded.symm.trans made
    · intro p made
      cases decoded.symm.trans made
    · intro e' failed
      cases decoded.symm.trans failed
      exact refused

/-! ## Keeping the way back open -/

theorem StandsAlone.of_consistent {s : PolicyStore} (h : s.Consistent)
    (object : s.defaults.IsObject) (bare : s.primary = .emptyObject) : s.StandsAlone := by
  have made := (materialize_eq_ok_iff.1 h).1
  rw [bare, Json.emptyObject, Json.layer_object_nil object] at made
  exact ⟨_, made⟩

/-- An operation that is not an accepted secondary document leaves the defaults. -/
theorem step_defaults_of_not_secondary {s : PolicyStore} (h : s.Consistent) {files : FileArea}
    {op : Operation}
    (other : ∀ source, op = .loadSecondary source → (s.step files op).2 ≠ .ok ()) :
    (s.step files op).1.defaults = s.defaults := by
  rcases h.step_cases files op with ⟨e, refused⟩ | ⟨t, accepted, _, effect⟩
  · rw [refused]
  · rw [accepted, effect.defaults]
    cases op with
    | loadSecondary source => exact absurd (by rw [accepted]) (other source rfl)
    | _ => rfl

/-- A secondary document accepted over an empty primary one is judged alone. -/
theorem StandsAlone.step {s : PolicyStore} (alone : s.StandsAlone) (h : s.Consistent)
    (object : s.defaults.IsObject) (files : FileArea) (op : Operation)
    (bare : ∀ source, op = .loadSecondary source → (s.step files op).2 = .ok () →
      s.primary = .emptyObject) :
    (s.step files op).1.StandsAlone := by
  by_cases secondary : ∃ source, op = .loadSecondary source ∧ (s.step files op).2 = .ok ()
  · obtain ⟨source, rfl, accepted⟩ := secondary
    rcases h.step_cases files (.loadSecondary source) with ⟨e, refused⟩ | ⟨t, made, consistent, effect⟩
    · rwa [refused]
    · rw [made]
      refine .of_consistent consistent ?_ ?_
      · rw [effect.defaults]
        exact layered_isObject object _
      · rw [effect.primary]
        exact bare source rfl accepted
  · have same : (s.step files op).1.defaults = s.defaults := by
      refine step_defaults_of_not_secondary h ?_
      intro source isSecondary accepted
      exact secondary ⟨source, isSecondary, accepted⟩
    rwa [StandsAlone, same]

theorem Started.standsAlone {d : Json} {s : PolicyStore} (h : Started d s) : s.StandsAlone :=
  .of_consistent h.consistent (h.fresh.1 ▸ h.isObject) h.fresh.2.1

theorem StandsAlone.run {s : PolicyStore} (alone : s.StandsAlone) (h : s.Consistent)
    (object : s.defaults.IsObject) {ops : List (FileArea × Operation)} (bare : Uncovered s ops) :
    (s.run ops).StandsAlone := by
  induction ops generalizing s with
  | nil => exact alone
  | cons op ops ih =>
    obtain ⟨files, op⟩ := op
    have first : (s.step files op).1.StandsAlone := by
      refine alone.step h object files op ?_
      rintro source rfl accepted
      exact bare [] files source ops rfl accepted
    have consistent : (s.step files op).1.Consistent := (h.run [(files, op)]).1
    have kept : (s.step files op).1.defaults.IsObject := by
      have effect := (h.run [(files, op)]).2
      exact effect.defaults ▸ layered_isObject object _
    refine ih first consistent kept ?_
    intro before files' source after split accepted
    exact bare ((files, op) :: before) files' source after (by rw [split]; rfl) accepted

/-- **A reset succeeds exactly when the stored defaults make a policy by themselves**, and installs
that policy; otherwise it changes nothing. Only an accepted secondary document can change whether it
will succeed, and none that was accepted over an empty primary document can make it fail. -/
theorem run_resets {d : Json} {s : PolicyStore} (start : Started d s)
    (ops : List (FileArea × Operation)) :
    (s.run ops).Resets ∧
      (∀ files op, (∀ source, op = .loadSecondary source →
          ((s.run ops).step files op).2 ≠ .ok ()) →
        (((s.run ops).step files op).1.StandsAlone ↔ (s.run ops).StandsAlone)) ∧
      (Uncovered s ops → (s.run ops).StandsAlone) := by
  have consistent := (start.consistent.run ops).1
  refine ⟨resets_of_isObject (start.defaults_isObject ops), ?_, ?_⟩
  · intro files op other
    rw [StandsAlone, StandsAlone, step_defaults_of_not_secondary consistent other]
  · have object : s.defaults.IsObject := start.defaults_isObject []
    exact start.standsAlone.run start.consistent object

/-- A secondary document over the built-in defaults, and then a reset. -/
theorem run_resets_after_secondary : ∃ ops : List (FileArea × Operation),
    Started standardDocument standard ∧
      ((standard.run ops).Resets ∧
        (∀ files op, (∀ source, op = .loadSecondary source →
            ((standard.run ops).step files op).2 ≠ .ok ()) →
          (((standard.run ops).step files op).1.StandsAlone ↔ (standard.run ops).StandsAlone)) ∧
        (Uncovered standard ops → (standard.run ops).StandsAlone)) ∧
      (standard.run ops).reset.2 = .ok () ∧
      (standard.run ops).reset.1.live.policy.truncateLength = some 12 :=
  ⟨[(.empty, .loadSecondary (.document (.object [("truncateLength", .nat 12)])))],
    .standard, run_resets .standard _, rfl, rfl⟩

/-- A primary document can hide a secondary one that is no policy: the store accepts both, and then
it cannot be reset. -/
theorem reset_fails_under_hidden_secondary : ∃ ops : List (FileArea × Operation),
    Started standardDocument standard ∧
      (standard.history ops).map Entry.accepted = [true, true] ∧
      (standard.run ops).reset = (standard.run ops, .error .invalid) :=
  ⟨[(.empty, .reload (.document (.object [("truncateLength", .nat 5)]))),
    (.empty, .loadSecondary (.document (.object [("truncateLength", .string "x")])))],
    .standard, rfl, rfl⟩

end ChangeAudit.PolicyStore
