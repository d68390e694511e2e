import ChangeAudit.Policy.Store

/-!
# Runs of the policy store

A run is told by its `history`: every operation with the files it found and whether it was
accepted. `InStep` reads off a history what the store must hold after it: the documents, the
registered sources of the actor, and the live policy they make. The invariant behind it is
`Consistent`: the live policy is the one that the stored documents make now. Every operation keeps
it, so registering a source of the actor never fails, and an operation that fails changes nothing.
-/

namespace ChangeAudit

/-- Which resolver a policy gets: a registered one before all, a registered session if the policy
names an attribute or a key, and nobody otherwise. -/
inductive Resolver.ChosenFor (p : Policy) :
    Option Resolver → Option Session → Resolver → Prop where
  | registered (r : Resolver) (session : Option Session) : ChosenFor p (some r) session r
  | session (source : Session) (asked : p.sessionAttribute.isSome ∨ p.actorKey.isSome) :
      ChosenFor p none (some source) (.session source p.sessionAttribute p.actorKey)
  | unasked (source : Session) (silent : p.sessionAttribute = none ∧ p.actorKey = none) :
      ChosenFor p none (some source) .nobody
  | unregistered : ChosenFor p none none .nobody

namespace PolicyStore

theorem chooseResolver_chosenFor (resolver : Option Resolver) (session : Option Session)
    (p : Policy) : Resolver.ChosenFor p resolver session (chooseResolver resolver session p) := by
  cases resolver with
  | some r => exact .registered r session
  | none =>
    cases session with
    | none => exact .unregistered
    | some source =>
      by_cases asked : p.sessionAttribute.isSome ∨ p.actorKey.isSome
      · rw [chooseResolver, if_pos asked]
        exact .session source asked
      · rw [chooseResolver, if_neg asked]
        rw [not_or] at asked
        exact .unasked source ⟨by simpa using asked.1, by simpa using asked.2⟩

/-! ## What materializing a document takes -/

theorem policyOf_eq_ok_iff {document : Json} {p : Policy} :
    policyOf document = .ok p ↔
      Policy.decode? document.toTerm = some p ∧ ∃ plan, p.stampPlan = .ok plan := by
  constructor
  · intro h
    unfold policyOf at h
    split at h
    · nomatch h
    · rename_i decoded
      split at h
      · rename_i plan built
        cases h
        exact ⟨decoded, plan, built⟩
      · nomatch h
  · rintro ⟨decoded, plan, built⟩
    simp only [policyOf, decoded, built]

theorem materialize_eq_ok_iff {s : PolicyStore} {primary : Json} {live : LivePolicy} :
    s.materialize primary = .ok live ↔
      policyOf (s.defaults.layer primary) = .ok live.policy ∧
        live.resolver = chooseResolver s.resolver s.session live.policy := by
  unfold materialize
  obtain ⟨policy, resolver⟩ := live
  cases policyOf (s.defaults.layer primary) with
  | error e => simp
  | ok p =>
    simp only [Except.ok.injEq, LivePolicy.mk.injEq]
    constructor
    · rintro ⟨rfl, rfl⟩
      exact ⟨rfl, rfl⟩
    · rintro ⟨rfl, rfl⟩
      exact ⟨rfl, rfl⟩

/-- Whether a document makes a policy does not depend on who acts. -/
theorem materialize_of_policyOf {s : PolicyStore} {primary : Json} {p : Policy}
    (h : policyOf (s.defaults.layer primary) = .ok p) :
    s.materialize primary = .ok ⟨p, chooseResolver s.resolver s.session p⟩ :=
  materialize_eq_ok_iff.2 ⟨h, rfl⟩

/-! ## The invariant -/

/-- The live policy is the one that the stored documents make. -/
def Consistent (s : PolicyStore) : Prop := s.materialize s.primary = .ok s.live

/-- A store as it is created, over a document of defaults. -/
inductive Started : Json → PolicyStore → Prop where
  | standard : Started standardDocument .standard
  | withDefaults {files : FileArea} {source : PolicySource} {defaults : Json} {s : PolicyStore}
      (read : source.read files = .ok defaults) (made : withDefaults files source = .ok s) :
      Started defaults s

theorem standard_consistent : standard.Consistent := by
  have decoded : policyOf (standardDocument.layer .emptyObject) = .ok .standard := rfl
  exact materialize_of_policyOf decoded

/-- A store over other defaults begins with their document alone. -/
theorem withDefaults_eq_ok {files : FileArea} {source : PolicySource} {defaults : Json}
    {s : PolicyStore} (read : source.read files = .ok defaults)
    (made : withDefaults files source = .ok s) :
    s.Consistent ∧ s.defaults = defaults ∧ s.primary = .emptyObject ∧ s.resolver = none ∧
      s.session = none := by
  unfold withDefaults at made
  rw [read] at made
  simp only at made
  split at made
  · rename_i live ok
    cases made
    exact ⟨ok, rfl, rfl, rfl, rfl⟩
  · nomatch made

theorem Started.consistent {d : Json} {s : PolicyStore} (h : Started d s) : s.Consistent := by
  cases h with
  | standard => exact standard_consistent
  | withDefaults read made => exact (withDefaults_eq_ok read made).1

/-! ## Histories -/

/-- An operation of a run: the files that it found, and whether it was accepted. -/
structure Entry where
  files : FileArea
  operation : Operation
  accepted : Bool

/-- The history of a run. -/
def history (s : PolicyStore) : List (FileArea × Operation) → List Entry
  | [] => []
  | op :: ops => ⟨op.1, op.2, (s.step op.1 op.2).2.isOk⟩ :: history (s.step op.1 op.2).1 ops

namespace Entry

/-- The document that an accepted operation put underneath the defaults. -/
def secondary? (e : Entry) : Option Json :=
  match e.operation, e.accepted with
  | .loadSecondary source, true => (source.read e.files).toOption
  | _, _ => none

/-- The primary document that an accepted operation left. -/
def primary? (e : Entry) : Option Json :=
  match e.operation, e.accepted with
  | .reload source, true => (source.read e.files).toOption
  | .reset, true => some .emptyObject
  | _, _ => none

/-- The resolver that an accepted operation registered. -/
def resolver? (e : Entry) : Option Resolver :=
  match e.operation, e.accepted with
  | .setResolver r, true => some r
  | _, _ => none

/-- The session that an accepted operation registered. -/
def session? (e : Entry) : Option Session :=
  match e.operation, e.accepted with
  | .setSession source, true => some source
  | _, _ => none

end Entry

/-- The last thing that the entries of a history tell. -/
def latest {α : Type} (tell : Entry → Option α) (h : List Entry) : Option α :=
  (h.filterMap tell).getLast?

/-- The defaults with the secondary documents of a history underneath, one after the other. -/
def layered (defaults : Json) (h : List Entry) : Json :=
  (h.filterMap Entry.secondary?).foldl (fun below extra => extra.layer below) defaults

/-- What a history makes of the documents and sources of a store. -/
structure After (s : PolicyStore) (h : List Entry) (t : PolicyStore) : Prop where
  defaults : t.defaults = layered s.defaults h
  primary : t.primary = (latest Entry.primary? h).getD s.primary
  resolver : t.resolver = (latest Entry.resolver? h).or s.resolver
  session : t.session = (latest Entry.session? h).or s.session

theorem latest_cons {α : Type} (tell : Entry → Option α) (e : Entry) (h : List Entry) :
    latest tell (e :: h) = (latest tell h).or (tell e) := by
  unfold latest
  cases told : tell e with
  | none => simp [told]
  | some a => simp [told, List.getLast?_cons]

theorem layered_cons (defaults : Json) (e : Entry) (h : List Entry) :
    layered defaults (e :: h) = layered (layered defaults [e]) h := by
  cases told : e.secondary? with
  | none => simp [layered, told]
  | some extra => simp [layered, told]

theorem After.nil (s : PolicyStore) : After s [] s := ⟨rfl, rfl, rfl, rfl⟩

theorem After.cons {s t u : PolicyStore} {e : Entry} {h : List Entry} (first : After s [e] t)
    (rest : After t h u) : After s (e :: h) u where
  defaults := by rw [rest.defaults, first.defaults, ← layered_cons]
  primary := by
    rw [rest.primary, first.primary, latest_cons, latest_cons]
    cases latest Entry.primary? h <;> rfl
  resolver := by
    rw [rest.resolver, first.resolver, latest_cons, latest_cons, ← Option.or_assoc]
    rfl
  session := by
    rw [rest.session, first.session, latest_cons, latest_cons, ← Option.or_assoc]
    rfl

/-- A refused operation is told by an entry that changes nothing. -/
theorem After.refused (s : PolicyStore) (files : FileArea) (op : Operation) :
    After s [⟨files, op, false⟩] s := by
  cases op <;> exact ⟨rfl, rfl, rfl, rfl⟩

/-! ## What one operation does -/

/-- Registering a source of the actor never fails: the documents made a policy before. -/
theorem refresh_of_documents {s t : PolicyStore} (h : s.Consistent)
    (defaults : t.defaults = s.defaults) (primary : t.primary = s.primary) :
    ∃ live, t.refresh = ({ t with live := live }, .ok ()) ∧
      Consistent { t with live := live } := by
  have decoded : policyOf (t.defaults.layer t.primary) = .ok s.live.policy := by
    rw [defaults, primary]
    exact (materialize_eq_ok_iff.1 h).1
  have made := materialize_of_policyOf decoded
  exact ⟨⟨s.live.policy, chooseResolver t.resolver t.session s.live.policy⟩,
    by simp only [refresh, made], made⟩

/-- In a consistent store an operation either fails and changes nothing, or succeeds and leaves a
consistent store as its entry tells. -/
theorem Consistent.step_cases {s : PolicyStore} (h : s.Consistent) (files : FileArea)
    (op : Operation) :
    (∃ e, s.step files op = (s, .error e)) ∨
      ∃ t, s.step files op = (t, .ok ()) ∧ t.Consistent ∧ After s [⟨files, op, true⟩] t := by
  cases op with
  | load source =>
    cases loaded : s.load files source with
    | error e => exact .inl ⟨e, by simp [step, loaded, Except.map]⟩
    | ok live =>
      exact .inr ⟨s, by simp [step, loaded, Except.map], h, ⟨rfl, rfl, rfl, rfl⟩⟩
  | reload source =>
    cases read : source.read files with
    | error e => exact .inl ⟨e, by simp [step, reload, read]⟩
    | ok primary =>
      cases made : s.materialize primary with
      | error e => exact .inl ⟨e, by simp [step, reload, read, made]⟩
      | ok live =>
        refine .inr ⟨{ s with primary := primary, live := live },
          by simp [step, reload, read, made], made, ⟨rfl, ?_, rfl, rfl⟩⟩
        simp [latest, Entry.primary?, read, Except.toOption]
  | loadSecondary source =>
    cases read : source.read files with
    | error e => exact .inl ⟨e, by simp [step, loadSecondary, read]⟩
    | ok extra =>
      cases made : materialize { s with defaults := extra.layer s.defaults } s.primary with
      | error e => exact .inl ⟨e, by simp [step, loadSecondary, read, made]⟩
      | ok live =>
        refine .inr ⟨{ s with defaults := extra.layer s.defaults, live := live },
          by simp [step, loadSecondary, read, made], made, ⟨?_, rfl, rfl, rfl⟩⟩
        simp [layered, Entry.secondary?, read, Except.toOption]
  | reset =>
    cases made : s.materialize .emptyObject with
    | error e => exact .inl ⟨e, by simp [step, reset, made]⟩
    | ok live =>
      exact .inr ⟨{ s with primary := .emptyObject, live := live },
        by simp [step, reset, made], made, ⟨rfl, rfl, rfl, rfl⟩⟩
  | setResolver r =>
    obtain ⟨live, made, consistent⟩ := refresh_of_documents h
      (t := { s with resolver := some r }) rfl rfl
    exact .inr ⟨_, made, consistent, ⟨rfl, rfl, rfl, rfl⟩⟩
  | setSession source =>
    obtain ⟨live, made, consistent⟩ := refresh_of_documents h
      (t := { s with session := some source }) rfl rfl
    exact .inr ⟨_, made, consistent, ⟨rfl, rfl, rfl, rfl⟩⟩

/-! ## What a run does -/

/-- A run keeps the store consistent and leaves what its history tells. -/
theorem Consistent.run {s : PolicyStore} (h : s.Consistent) (ops : List (FileArea × Operation)) :
    (s.run ops).Consistent ∧ After s (s.history ops) (s.run ops) := by
  induction ops generalizing s with
  | nil => exact ⟨h, .nil s⟩
  | cons op ops ih =>
    obtain ⟨files, op⟩ := op
    rcases h.step_cases files op with ⟨e, refused⟩ | ⟨t, accepted, consistent, effect⟩
    · have rest := ih h
      simp only [PolicyStore.run, history, List.foldl_cons, refused, Except.isOk, Except.toBool]
      exact ⟨rest.1, (After.refused s files op).cons rest.2⟩
    · have rest := ih consistent
      simp only [PolicyStore.run, history, List.foldl_cons, accepted, Except.isOk, Except.toBool]
      exact ⟨rest.1, effect.cons rest.2⟩

/-- A store as it is created holds its defaults and nothing else. -/
theorem Started.fresh {d : Json} {s : PolicyStore} (h : Started d s) :
    s.defaults = d ∧ s.primary = .emptyObject ∧ s.resolver = none ∧ s.session = none := by
  cases h with
  | standard => exact ⟨rfl, rfl, rfl, rfl⟩
  | withDefaults read made => exact (withDefaults_eq_ok read made).2

/-- What a store over the defaults `d` holds after the operations of a history. -/
structure InStep (d : Json) (h : List Entry) (s : PolicyStore) : Prop where
  defaults : s.defaults = layered d h
  primary : s.primary = (latest Entry.primary? h).getD .emptyObject
  resolver : s.resolver = latest Entry.resolver? h
  session : s.session = latest Entry.session? h
  decoded : Policy.decode? (s.defaults.layer s.primary).toTerm = some s.live.policy
  stamps : ∃ plan, StampPlan.ofOverrides s.live.policy.stamp = .ok plan
  chosen : Resolver.ChosenFor s.live.policy s.resolver s.session s.live.resolver

/-- How a store answers its next operation. -/
structure Answers (s : PolicyStore) : Prop where
  unchanged : ∀ files op e, (s.step files op).2 = .error e → (s.step files op).1 = s
  resolver : ∀ files r, (s.step files (.setResolver r)).2 = .ok ()
  session : ∀ files source, (s.step files (.setSession source)).2 = .ok ()

theorem Consistent.answers {s : PolicyStore} (h : s.Consistent) : s.Answers where
  unchanged := by
    intro files op e failed
    rcases h.step_cases files op with ⟨e', refused⟩ | ⟨t, accepted, _, _⟩
    · rw [refused]
    · rw [accepted] at failed
      nomatch failed
  resolver := by
    intro files r
    obtain ⟨live, made, _⟩ := refresh_of_documents h (t := { s with resolver := some r }) rfl rfl
    rw [step, setResolver, made]
  session := by
    intro files source
    obtain ⟨live, made, _⟩ :=
      refresh_of_documents h (t := { s with session := some source }) rfl rfl
    rw [step, setSession, made]

/-- **The store keeps step with its history**: after every run the documents, the registered sources
and the live policy are those that the accepted operations tell; the next operation changes nothing
if it fails, and registering a source of the actor does not fail. -/
theorem run_inStep {d : Json} {s : PolicyStore} (start : Started d s)
    (ops : List (FileArea × Operation)) :
    InStep d (s.history ops) (s.run ops) ∧ (s.run ops).Answers := by
  obtain ⟨defaults, primary, resolver, session⟩ := start.fresh
  obtain ⟨consistent, after⟩ := start.consistent.run ops
  obtain ⟨made, chosen⟩ := materialize_eq_ok_iff.1 consistent
  obtain ⟨decoded, stamps⟩ := policyOf_eq_ok_iff.1 made
  refine ⟨⟨?_, ?_, ?_, ?_, decoded, stamps, ?_⟩, consistent.answers⟩
  · rw [after.defaults, defaults]
  · rw [after.primary, primary]
  · rw [after.resolver, resolver, Option.or_none]
  · rw [after.session, session, Option.or_none]
  · rw [chosen]
    exact chooseResolver_chosenFor _ _ _

/-- A refused reload between an accepted one, a secondary document and a resolver. -/
theorem run_inStep_refused_reload : ∃ ops : List (FileArea × Operation),
    Started standardDocument standard ∧
      (InStep standardDocument (standard.history ops) (standard.run ops) ∧
        (standard.run ops).Answers) ∧
      (standard.run ops).live.policy.truncateLength = some 12 ∧
      (standard.run ops).live.policy.verbose = true ∧
      (standard.run ops).live.actor = some "alice" :=
  ⟨[(.empty, .reload (.document (.object [("verbose", .bool true)]))),
    (.empty, .loadSecondary (.document (.object [("truncateLength", .nat 12)]))),
    (.empty, .reload (.document (.object [("verbose", .string "loud")]))),
    (.empty, .setResolver (.answering (.ok (some "alice"))))],
    .standard, run_inStep .standard _, rfl, rfl, rfl⟩

end PolicyStore

end ChangeAudit
