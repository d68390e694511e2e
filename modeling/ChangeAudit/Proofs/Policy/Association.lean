import ChangeAudit.Proofs.Policy.Origins
import ChangeAudit.Proofs.Policy.Secondary

/-!
# Layering is associative where no layer cuts another

What is no object hides what is below it, and it is hidden itself by what is above it. So a middle
document that holds such a value between two objects (`Json.Cuts`) keeps the two apart as long as it
is layered with the lower one first, and lets them meet otherwise. Where it does not, the order in
which three documents are layered makes no difference, not even to the order of keys
(`Json.KeysDistinct.layer_assoc`), and two secondary documents may as well be loaded as one.
-/

namespace ChangeAudit

namespace Json

/-- At some path the middle document holds something that is no object, and the outer ones hold
objects. -/
def Cuts (middle lower upper : Json) : Prop :=
  ∃ path l m u, lower.at? path = some l ∧ middle.at? path = some m ∧ upper.at? path = some u ∧
    l.IsObject ∧ ¬ m.IsObject ∧ u.IsObject

theorem isObject_of_at? {j v : Json} {path : List String} (found : j.at? path = some v)
    (object : v.IsObject) : j.IsObject := by
  cases path with
  | nil =>
    cases found
    exact object
  | cons key path =>
    rw [at?_cons, Option.bind_eq_some_iff] at found
    obtain ⟨next, there, -⟩ := found
    exact isObject_of_get? there

/-- A document cuts two objects right away, or inside a member that all three have. -/
theorem cuts_iff {middle lower upper : Json} :
    middle.Cuts lower upper ↔ lower.IsObject ∧ upper.IsObject ∧
      (¬ middle.IsObject ∨ ∃ key l m u, lower.get? key = some l ∧ middle.get? key = some m ∧
        upper.get? key = some u ∧ m.Cuts l u) := by
  constructor
  · rintro ⟨path, l, m, u, below, between, above, object, bare, object'⟩
    refine ⟨isObject_of_at? below object, isObject_of_at? above object', ?_⟩
    cases path with
    | nil =>
      cases between
      exact .inl bare
    | cons key path =>
      rw [at?_cons, Option.bind_eq_some_iff] at below between above
      obtain ⟨l', belowThere, below⟩ := below
      obtain ⟨m', betweenThere, between⟩ := between
      obtain ⟨u', aboveThere, above⟩ := above
      exact .inr ⟨key, l', m', u', belowThere, betweenThere, aboveThere, path, l, m, u, below,
        between, above, object, bare, object'⟩
  · rintro ⟨object, object', bare | ⟨key, l', m', u', belowThere, betweenThere, aboveThere, path, l,
      m, u, below, between, above, cut⟩⟩
    · exact ⟨[], lower, middle, upper, rfl, rfl, rfl, object, bare, object'⟩
    · refine ⟨key :: path, l, m, u, ?_, ?_, ?_, cut⟩
      · rw [at?_cons, belowThere, Option.bind_some, below]
      · rw [at?_cons, betweenThere, Option.bind_some, between]
      · rw [at?_cons, aboveThere, Option.bind_some, above]

/-- An object cuts nothing if none of its members does. -/
theorem not_cuts_object {between : List (String × Json)} {lower upper : Json}
    (each : ∀ p ∈ between, ∀ l u, lower.get? p.1 = some l → upper.get? p.1 = some u →
      ¬ p.2.Cuts l u) : ¬ (object between).Cuts lower upper := by
  intro cut
  obtain ⟨-, -, bare | ⟨key, l, m, u, below, there, above, cut⟩⟩ := cuts_iff.1 cut
  · exact bare ⟨between, rfl⟩
  · exact each (key, m) (Entries.mem_of_get? there) l u below above cut

/-! ## Three documents -/

theorem layerMembers_append (below below' above : List (String × Json)) :
    layerMembers (below ++ below') above = layerMembers below above ++ layerMembers below' above := by
  rw [layerMembers_eq_map, layerMembers_eq_map, layerMembers_eq_map, List.map_append]

theorem layerMembers_filter (keep : String → Bool) (below above : List (String × Json)) :
    layerMembers (below.filter fun m => keep m.1) above =
      (layerMembers below above).filter fun m => keep m.1 := by
  rw [layerMembers_eq_map, layerMembers_eq_map, List.filter_map]
  rfl

/-- Members are layered in any order if the values are that the lower and the upper object both
have. -/
theorem overMembers_assoc {below between above : List (String × Json)}
    (each : ∀ p ∈ below, ∀ m u, Entries.get? between p.1 = some m →
      Entries.get? above p.1 = some u → (p.2.layer m).layer u = p.2.layer (m.layer u)) :
    overMembers (overMembers below between) above =
      overMembers below (overMembers between above) := by
  have lowest : layerMembers (layerMembers below between) above =
      layerMembers below (overMembers between above) := by
    simp only [layerMembers_eq_map below, layerMembers_eq_map (List.map _ _), List.map_map]
    apply List.map_congr_left
    intro p listed
    simp only [Function.comp_apply, get?_overMembers]
    cases there : Entries.get? between p.1 with
    | none => cases Entries.get? above p.1 <;> rfl
    | some m =>
      cases there' : Entries.get? above p.1 with
      | none => rfl
      | some u => exact congrArg (Prod.mk p.1) (each p listed m u there there')
  have highest : (above.filter fun m => (Entries.get? (overMembers below between) m.1).isNone) =
      (above.filter fun m => (Entries.get? between m.1).isNone).filter
        fun m => (Entries.get? below m.1).isNone := by
    rw [List.filter_filter]
    apply List.filter_congr
    intro m _
    rw [get?_overMembers]
    cases Entries.get? below m.1 <;> cases Entries.get? between m.1 <;> rfl
  calc overMembers (overMembers below between) above
      = layerMembers (layerMembers below between ++
            between.filter fun m => (Entries.get? below m.1).isNone) above ++
          above.filter fun m => (Entries.get? (overMembers below between) m.1).isNone := rfl
    _ = layerMembers below (overMembers between above) ++
          ((layerMembers between above ++
              above.filter fun m => (Entries.get? between m.1).isNone).filter
            fun m => (Entries.get? below m.1).isNone) := by
        rw [layerMembers_append, lowest, highest, List.filter_append, List.append_assoc,
          layerMembers_filter fun key => (Entries.get? below key).isNone]
    _ = overMembers below (overMembers between above) := rfl

/-- Three documents may be layered in any order, unless the middle one cuts the others. -/
theorem KeysDistinct.layer_assoc {lower middle upper : Json} (distinct : lower.KeysDistinct)
    (uncut : ¬ middle.Cuts lower upper) :
    (lower.layer middle).layer upper = lower.layer (middle.layer upper) := by
  induction distinct generalizing middle upper with
  | @object below once each ih =>
    by_cases above : upper.IsObject
    case neg => rw [layer_eq_upper _ above, layer_eq_upper _ above, layer_eq_upper _ above]
    by_cases between : middle.IsObject
    case neg => exact absurd (cuts_iff.2 ⟨⟨below, rfl⟩, above, .inl between⟩) uncut
    obtain ⟨above, rfl⟩ := above
    obtain ⟨between, rfl⟩ := between
    simp only [layer_object]
    congr 1
    apply overMembers_assoc
    intro p listed m u there there'
    apply ih p listed
    intro cut
    exact uncut (cuts_iff.2 ⟨⟨below, rfl⟩, ⟨above, rfl⟩, .inr ⟨p.1, p.2, m, u,
      Entries.get?_of_mem once listed, there, there', cut⟩⟩)
  | _ =>
    -- what is no object leaves nothing of itself, under either of the other two
    refine (congrArg (Json.layer · upper) (layer_eq_upper_of_lower ?_ middle)).trans
      (layer_eq_upper_of_lower ?_ _).symm
    all_goals rintro ⟨_, ⟨⟩⟩

end Json

namespace PolicySource

/-- A settled document is read from its section. -/
theorem read_section {document : Json} (settled : document.Settled) (files : FileArea) :
    read files (.document (.object [(sectionKey, document)])) = .ok document := by
  obtain ⟨⟨members, rfl⟩, -, spelling⟩ := settled
  rw [Json.get?] at spelling
  simp only [read, contents, normalize, unwrap, Entries.get?, if_true, Option.getD_some,
    settleSpelling, spelling]

end PolicySource

namespace PolicyStore

/-- The order in which two documents go below a third one makes no difference: not to the layering,
and not to a store that has the third one for its defaults and accepts the middle one. It then
answers to the lower one as it would have answered to both in one document, and is the same store
afterwards. -/
structure Associates (lower middle upper : Json) : Prop where
  documents : (lower.layer middle).layer upper = lower.layer (middle.layer upper)
  stores : ∀ {s t : PolicyStore} {files files' files'' : FileArea}
    {first second whole : PolicySource}, s.defaults = upper →
      first.read files = .ok middle → second.read files' = .ok lower →
        whole.read files'' = .ok (lower.layer middle) →
          s.loadSecondary files first = (t, .ok ()) →
    (s.loadSecondary files'' whole).2 = (t.loadSecondary files' second).2 ∧
      ∀ u, t.loadSecondary files' second = (u, .ok ()) →
        s.loadSecondary files'' whole = (u, .ok ())

theorem loadSecondary_of_layer_eq {s t : PolicyStore} {files files' files'' : FileArea}
    {first second whole : PolicySource} {lower middle : Json}
    (same : (lower.layer middle).layer s.defaults = lower.layer (middle.layer s.defaults))
    (readFirst : first.read files = .ok middle) (readSecond : second.read files' = .ok lower)
    (readWhole : whole.read files'' = .ok (lower.layer middle))
    (loaded : s.loadSecondary files first = (t, .ok ())) :
    (s.loadSecondary files'' whole).2 = (t.loadSecondary files' second).2 ∧
      ∀ u, t.loadSecondary files' second = (u, .ok ()) →
        s.loadSecondary files'' whole = (u, .ok ()) := by
  obtain ⟨extra, live, read, rfl, -⟩ := loadSecondary_eq_ok loaded
  obtain rfl : middle = extra := Except.ok.inj (readFirst.symm.trans read)
  simp only [loadSecondary, readSecond, readWhole, same, materialize]
  -- either way the policy is that of the same three documents under the primary one
  cases policyOf ((lower.layer (middle.layer s.defaults)).layer s.primary) with
  | ok p => exact ⟨rfl, fun u accepted => accepted⟩
  | error e =>
    refine ⟨rfl, ?_⟩
    rintro u ⟨⟩

/-- **Layering is associative where no layer cuts another**: unless the middle one of three documents
holds something that is no object at a path where the outer two hold objects, it does not matter
which two are layered first, nor, for a store over the upper one, whether the other two are loaded
one after the other or as one secondary document. -/
theorem layer_associates {lower middle upper : Json} (distinct : lower.KeysDistinct)
    (uncut : ¬ middle.Cuts lower upper) : Associates lower middle upper where
  documents := distinct.layer_assoc uncut
  stores := by
    rintro s t files files' files'' first second whole rfl
    exact loadSecondary_of_layer_eq (distinct.layer_assoc uncut)

/-- A document about the stamps of roles. -/
def aboutRoles (roles : List (String × Json)) : Json := .object [("stamp", .object roles)]

/-- Names the field of the creator. -/
def authorNamed : Json := aboutRoles [("createdBy", .object [("name", .string "author")])]

/-- Demands the creator, and adds a flag. -/
def authorDemanded : Json :=
  aboutRoles [("createdBy", .object [("nullable", .bool false)]),
    ("removed", .object [("type", .string "flag")])]

/-- Has columns for both. -/
def columnsGiven : Json :=
  aboutRoles [("removed", .object [("type", .string "custom"), ("sqlType", .string "bit")]),
    ("createdBy", .object [("sqlType", .string "text")])]

/-- The store after the names of fields were put below its defaults. -/
def withAuthor : PolicyStore := (standard.loadSecondary .empty (.document authorNamed)).1

theorem not_cuts_columns : ¬ authorDemanded.Cuts columnsGiven withAuthor.defaults := by
  apply Json.not_cuts_object
  simp only [List.mem_singleton, forall_eq]
  rintro _ _ ⟨⟩ ⟨⟩
  apply Json.not_cuts_object
  simp only [List.forall_mem_cons, List.not_mem_nil, false_imp_iff, implies_true, and_true]
  constructor
  · rintro _ _ ⟨⟩ ⟨⟩
    apply Json.not_cuts_object
    simp only [List.mem_singleton, forall_eq]
    rintro _ _ ⟨⟩
  · rintro _ _ ⟨⟩ ⟨⟩

/-- Two documents about the creator and a flag come together with the name that the defaults have for
the creator's field. -/
theorem layer_associates_columns : ∃ t u : PolicyStore,
    columnsGiven.KeysDistinct ∧ ¬ authorDemanded.Cuts columnsGiven withAuthor.defaults ∧
      Associates columnsGiven authorDemanded withAuthor.defaults ∧
      withAuthor.loadSecondary .empty (.document authorDemanded) = (t, .ok ()) ∧
      t.loadSecondary .empty (.document columnsGiven) = (u, .ok ()) ∧
      withAuthor.loadSecondary .empty (.document (.object
        [(PolicySource.sectionKey, columnsGiven.layer authorDemanded)])) = (u, .ok ()) ∧
      u.live.policy.stamp.entries = [
        ("removed", { kind := some .flag, sqlType := some "bit" }),
        ("createdBy",
          { name := some "author", nullable := some false, sqlType := some "text" })] := by
  have distinct : columnsGiven.KeysDistinct := Term.json?_keysDistinct columnsGiven.toTerm _ rfl
  have distinct' : authorDemanded.KeysDistinct :=
    Term.json?_keysDistinct authorDemanded.toTerm _ rfl
  have settled : (columnsGiven.layer authorDemanded).Settled :=
    Json.Settled.layer ⟨⟨_, rfl⟩, distinct, rfl⟩ ⟨⟨_, rfl⟩, distinct', rfl⟩
  have associates := layer_associates distinct not_cuts_columns
  let t := (withAuthor.loadSecondary .empty (.document authorDemanded)).1
  have accepted : (withAuthor.loadSecondary .empty (.document authorDemanded)).2 = .ok () := rfl
  have first : withAuthor.loadSecondary .empty (.document authorDemanded) = (t, .ok ()) :=
    Prod.ext rfl accepted
  let u := (t.loadSecondary .empty (.document columnsGiven)).1
  have accepted' : (t.loadSecondary .empty (.document columnsGiven)).2 = .ok () := rfl
  have second : t.loadSecondary .empty (.document columnsGiven) = (u, .ok ()) :=
    Prod.ext rfl accepted'
  have whole := (associates.stores rfl rfl rfl (PolicySource.read_section settled .empty) first).2 u
    second
  exact ⟨t, u, distinct, not_cuts_columns, associates, first, second, whole, rfl⟩

/-- A document that cuts the others keeps them apart, unless it goes below the upper one first. -/
example : let nested (inner : Json) : Json := .object [("stamp", inner)]
    let lower := nested (.object [("createdBy", .object [])])
    let upper := nested (.object [])
    ((lower.layer (nested .null)).layer upper = upper) ∧
      (lower.layer ((nested .null).layer upper) = lower) := by
  decide

end PolicyStore

end ChangeAudit
