import ChangeAudit.Proofs.Policy.Spelling

/-!
# Secondary documents fill gaps

A secondary document goes below the defaults, which stay below the primary document. So whatever the
two say keeps its value: every value that is no object stands where it stood
(`Json.layer_keptIn`), and with it every setting and every attribute of an override that one of the
two gives (`PolicyStore.loadSecondary_fillsGaps`). What neither has comes from the new document, and
loading that again finds no gap to fill.

An override that is no object hides all of a lower one, so it fixes each attribute
(`Json.Fixes`), also those that it does not spell.
-/

namespace ChangeAudit

open FieldOverride (Attribute)
open Policy (Setting)

namespace Json

/-- A document leaves an attribute of a role's override to no document below: its override has the
attribute, or is no object at all. -/
def Fixes (document : Json) (role : String) (a : Attribute) : Prop :=
  ∃ o, document.override? role = some o ∧ ∀ members, o = .object members → a.givenIn members = true

theorem KeptIn.override? {old new : Json} (kept : old.KeptIn new) {role : String} {o : Json}
    (found : old.override? role = some o) : ∃ n, new.override? role = some n ∧ o.KeptIn n := by
  rw [override?_eq] at found
  obtain ⟨stamp, there, found⟩ := Option.bind_eq_some_iff.1 found
  obtain ⟨stamp', there', keptStamp⟩ := kept.get? there
  obtain ⟨n, found', keptOverride⟩ := keptStamp.get? found
  exact ⟨n, by rw [override?_eq, there']; exact found', keptOverride⟩

section Merge

variable {a : Attribute} {l l' : Option Json}

/-- An override that is no object hides what is below it. -/
theorem merge_of_not_isObject {v : Json} (bare : ¬ v.IsObject) (l : Option Json) :
    l.merge layer (some v) = some v := by
  cases l with
  | none => rfl
  | some l => rw [Option.merge_some_some, layer_eq_upper l bare]

theorem givenIn_merge {bottom top : List (String × Json)}
    (given : a.givenIn bottom = true ∨ a.givenIn top = true) :
    ∃ members, (some (object bottom)).merge layer (some (object top)) = some (.object members) ∧
      a.givenIn members = true := by
  refine ⟨overMembers bottom top, by rw [Option.merge_some_some, layer_object], ?_⟩
  rw [Attribute.givenIn_overMembers, Bool.or_eq_true]
  exact given

/-- A lower override that fixes an attribute goes on doing so, unless the upper one hides it. -/
theorem merge_of_lower_fixes {v : Json} (below : ¬ v.IsObject → l' = some v)
    (fixes : ∀ members, v = .object members → a.givenIn members = true) (u : Option Json) :
    l'.merge layer u = (some v).merge layer u ∨
      ∃ members, (some v).merge layer u = some (.object members) ∧ a.givenIn members = true := by
  by_cases isObject : v.IsObject
  case neg =>
    rw [below isObject]
    exact .inl rfl
  case pos =>
    obtain ⟨bottom, rfl⟩ := isObject
    have given := fixes bottom rfl
    cases u with
    | none => exact .inr ⟨bottom, rfl, given⟩
    | some w =>
      by_cases isObject : w.IsObject
      · obtain ⟨top, rfl⟩ := isObject
        exact .inr (givenIn_merge (.inl given))
      · rw [merge_of_not_isObject isObject, merge_of_not_isObject isObject]
        exact .inl rfl

/-- An upper override that fixes an attribute hides what is below it, or meets an object. -/
theorem merge_of_upper_fixes {w : Json} (below : ∀ v, l = some v → ¬ v.IsObject → l' = some v)
    (fixes : ∀ members, w = .object members → a.givenIn members = true) :
    l'.merge layer (some w) = l.merge layer (some w) ∨
      ∃ members, l.merge layer (some w) = some (.object members) ∧ a.givenIn members = true := by
  by_cases isObject : w.IsObject
  case neg =>
    rw [merge_of_not_isObject isObject, merge_of_not_isObject isObject]
    exact .inl rfl
  case pos =>
    obtain ⟨top, rfl⟩ := isObject
    have given := fixes top rfl
    cases l with
    | none => exact .inr ⟨top, rfl, given⟩
    | some v =>
      by_cases isObject : v.IsObject
      · obtain ⟨bottom, rfl⟩ := isObject
        exact .inr (givenIn_merge (.inr given))
      · rw [below v rfl isObject]
        exact .inl rfl

end Merge

/-- An attribute that one of two layers fixes is not asked of a document below them: either the
override of its role stays as it is, or that is an object that has the attribute. -/
theorem override?_of_fixes (extra : Json) {lower upper : Json} (object : upper.IsObject)
    (stamp : ∀ v, upper.get? "stamp" = some v → v.IsObject) {role : String} {a : Attribute}
    (fixed : lower.Fixes role a ∨ upper.Fixes role a) :
    ((extra.layer lower).layer upper).override? role = (lower.layer upper).override? role ∨
      ∃ members, (lower.layer upper).override? role = some (.object members) ∧
        a.givenIn members = true := by
  have below (v : Json) (found : lower.override? role = some v) (bare : ¬ v.IsObject) :
      (extra.layer lower).override? role = some v := by
    obtain ⟨n, found', kept⟩ := (keptIn_layer extra lower).override? found
    rw [found', kept.eq_of_not_isObject bare]
  rw [override?_layer lower object stamp, override?_layer (extra.layer lower) object stamp]
  rcases fixed with ⟨v, found, fixes⟩ | ⟨w, found, fixes⟩
  · rw [found]
    exact merge_of_lower_fixes (below v found) fixes _
  · rw [found]
    exact merge_of_upper_fixes below fixes

end Json

namespace Policy

variable {old new : Json} {p q : Policy}

/-- A setting that a document gives is that of every document in which it is kept. -/
theorem get_eq_of_keptIn (settled : old.Settled) (settled' : new.Settled) (kept : old.KeptIn new)
    (read : decode? old.toTerm = some p) (read' : decode? new.toTerm = some q) {a : Setting}
    (given : (old.get? a.key).isSome = true) : q.get a = p.get a := by
  obtain ⟨v, found⟩ := Option.isSome_iff_exists.1 given
  have setting := ((decode?_eq_some_iff settled).1 read).1 a
  have setting' := ((decode?_eq_some_iff settled').1 read').1 a
  rw [Setting.of?, found, Option.map_some] at setting
  obtain ⟨w, found', keptValue⟩ := kept.get? found
  obtain rfl := keptValue.eq_of_not_isObject (Setting.not_isObject setting)
  rw [Setting.of?, found', Option.map_some, setting] at setting'
  exact (Option.some.inj setting').symm

/-- An attribute that the override of a document has is that of every document in which the first is
kept. -/
theorem get_stamp_of_keptIn (settled : old.Settled) (settled' : new.Settled)
    (kept : old.KeptIn new) (read : decode? old.toTerm = some p)
    (read' : decode? new.toTerm = some q) {role : String} {a : Attribute}
    {members : List (String × Json)} (found : old.override? role = some (.object members))
    (given : a.givenIn members = true) :
    (q.stamp.get? role).map (·.get a) = (p.stamp.get? role).map (·.get a) := by
  obtain ⟨s, listed, there⟩ := List.any_eq_true.1 given
  obtain ⟨v, there⟩ := Option.isSome_iff_exists.1 there
  obtain ⟨n, found', keptOverride⟩ := kept.override? found
  obtain ⟨w, there', keptValue⟩ := keptOverride.get? there
  obtain ⟨members', rfl⟩ := Json.isObject_of_get? there'
  obtain ⟨o, stamped, decoded⟩ := exists_override settled read found
  obtain ⟨o', stamped', decoded'⟩ := exists_override settled' read' found'
  have reads := FieldOverride.decode?_object_eq_some_iff.1 decoded a
  have reads' := FieldOverride.decode?_object_eq_some_iff.1 decoded' a
  cases settled.keysDistinct.override? found with | object distinct each => ?_
  cases settled'.keysDistinct.override? found' with | object distinct' each' => ?_
  have value := Attribute.given?_of_found distinct reads listed there
  have value' := Attribute.given?_of_found distinct' reads' listed there'
  rw [stamped, stamped', Option.map_some, Option.map_some,
    Attribute.read_keptIn keptValue value value']

end Policy

namespace PolicyStore

/-- Stores that operations reach in whose documents no object has a key twice. -/
inductive Reached : PolicyStore → Prop where
  | standard : Reached .standard
  | withDefaults {files : FileArea} {source : PolicySource} {s : PolicyStore}
      (distinct : source.KeysDistinct) (made : withDefaults files source = .ok s) : Reached s
  | step {s : PolicyStore} (before : Reached s) (files : FileArea) {op : Operation}
      (distinct : op.KeysDistinct) : Reached (s.step files op).1

theorem Reached.consistent {s : PolicyStore} (reached : s.Reached) : s.Consistent := by
  induction reached with
  | standard => exact standard_consistent
  | @withDefaults files source s _ made =>
    cases read : source.read files with
    | ok defaults => exact (withDefaults_eq_ok read made).1
    | error e =>
      rw [PolicyStore.withDefaults, read] at made
      nomatch made
  | @step s _ files op _ ih => exact (ih.run [(files, op)]).1

theorem Reached.settled {s : PolicyStore} (reached : s.Reached) : s.Settled := by
  induction reached with
  | standard => exact standard_settled
  | @withDefaults files source s distinct made =>
    cases read : source.read files with
    | ok defaults =>
      obtain ⟨-, below, above, -⟩ := withDefaults_eq_ok read made
      rw [Settled, below, above]
      exact ⟨PolicySource.read_settled distinct read, Json.emptyObject_settled⟩
    | error e =>
      rw [PolicyStore.withDefaults, read] at made
      nomatch made
  | step _ _ distinct ih => exact ih.step distinct

/-- The document of which the live policy is made. -/
def effective (s : PolicyStore) : Json := s.defaults.layer s.primary

/-- What a store `t` with one more document below the defaults keeps of the store `s` before, and
what it has from the document. -/
structure FillsGaps (extra : Json) (s t : PolicyStore) : Prop where
  values : ∀ path v, ¬ v.IsObject → s.effective.at? path = some v → t.effective.at? path = some v
  settings : ∀ a : Setting,
    (s.defaults.get? a.key).isSome = true ∨ (s.primary.get? a.key).isSome = true →
      t.live.policy.get a = s.live.policy.get a
  attributes : ∀ role a, s.defaults.Fixes role a ∨ s.primary.Fixes role a →
    (t.live.policy.stamp.get? role).map (·.get a) = (s.live.policy.stamp.get? role).map (·.get a)
  gaps : ∀ key, s.effective.get? key = none → t.effective.get? key = extra.get? key

/-- What an accepted secondary document does to the store. -/
theorem loadSecondary_eq_ok {s t : PolicyStore} {files : FileArea} {source : PolicySource}
    (h : s.loadSecondary files source = (t, .ok ())) :
    ∃ extra live, source.read files = .ok extra ∧
      t = { s with defaults := extra.layer s.defaults, live := live } ∧
      materialize { s with defaults := extra.layer s.defaults } s.primary = .ok live := by
  unfold loadSecondary at h
  split at h
  · nomatch h
  · next extra read =>
    simp only at h
    split at h
    · next live made =>
      cases h
      exact ⟨extra, live, read, rfl, made⟩
    · nomatch h

/-- A document put below the defaults fills gaps. -/
theorem fillsGaps_of_layer {s t : PolicyStore} (settled : s.Settled) (settled' : t.Settled)
    (consistent : s.Consistent) (consistent' : t.Consistent) {extra : Json}
    (below : t.defaults = extra.layer s.defaults) (above : t.primary = s.primary) :
    FillsGaps extra s t := by
  have kept : s.effective.KeptIn t.effective := by
    rw [effective, effective, below, above]
    exact Json.layer_keptIn extra s.defaults s.primary
  have old : s.effective.Settled := settled.1.layer settled.2
  have new : t.effective.Settled := settled'.1.layer settled'.2
  have read := (policyOf_eq_ok_iff.1 (materialize_eq_ok_iff.1 consistent).1).1
  have read' := (policyOf_eq_ok_iff.1 (materialize_eq_ok_iff.1 consistent').1).1
  have lookup := Json.get?_layer s.defaults settled.2.isObject
  constructor
  · intro path v bare found
    obtain ⟨w, found', same⟩ := kept path v found
    rw [found', same bare]
  · intro a given
    apply Policy.get_eq_of_keptIn old new kept read read'
    rw [effective, lookup, Option.isSome_merge, Bool.or_eq_true]
    exact given
  · intro role a fixed
    have stamp := Policy.stamp_isObject ((Policy.decode?_eq_some_iff old).1 read).2
    have stampAbove : ∀ v, s.primary.get? "stamp" = some v → v.IsObject := by
      intro v found
      obtain ⟨w, found', same⟩ := (Json.keptIn_layer s.defaults s.primary).get? found
      by_contra bare
      obtain rfl := same.eq_of_not_isObject bare
      exact bare (stamp _ found')
    rcases Json.override?_of_fixes extra settled.2.isObject stampAbove fixed with
      same | ⟨members, found, given⟩
    · have overrides := Policy.get?_stamp old read role
      have overrides' := Policy.get?_stamp new read' role
      rw [overrides, overrides', effective, effective, below, above, same]
    · exact Policy.get_stamp_of_keptIn old new kept read read' found given
  · intro key gap
    rw [effective, lookup] at gap
    obtain ⟨noLower, noUpper⟩ := Option.merge_eq_none_iff.1 gap
    rw [effective, below, above, Json.get?_layer _ settled.2.isObject,
      Json.get?_layer extra settled.1.isObject, noLower, noUpper, Option.merge_none_right,
      Option.merge_none_right]

/-- **A secondary document only fills gaps**: once it is accepted, every value that was no object
stands at its path as before, and every setting and every attribute of an override that the defaults
or the primary document gave is as it was; what neither of them has at all comes from the new
document. Loading the same document again is accepted and changes nothing. -/
theorem loadSecondary_fillsGaps {s t : PolicyStore} (reached : s.Reached) {files : FileArea}
    {source : PolicySource} (distinct : source.KeysDistinct)
    (loaded : s.loadSecondary files source = (t, .ok ())) :
    (∃ extra, source.read files = .ok extra ∧ FillsGaps extra s t) ∧
      ∀ files' source', PolicySource.read files' source' = source.read files →
        t.loadSecondary files' source' = (t, .ok ()) := by
  have reached' : t.Reached := by
    have next : (s.step files (.loadSecondary source)).1.Reached := reached.step files distinct
    rwa [step, loaded] at next
  obtain ⟨extra, live, read, rfl, made⟩ := loadSecondary_eq_ok loaded
  constructor
  · exact ⟨extra, read, fillsGaps_of_layer reached.settled reached'.settled reached.consistent
      reached'.consistent rfl rfl⟩
  · intro files' source' same
    have again := (PolicySource.read_settled distinct read).keysDistinct.layer_layer s.defaults
    have standing := reached'.consistent
    unfold Consistent at standing
    simp only [loadSecondary, same, read, again, standing]

/-- A document names a field that the primary document names otherwise, and requires it: the name
stays and the requirement comes in. -/
theorem loadSecondary_fillsGaps_of_name : ∃ (s t : PolicyStore) (source : PolicySource),
    s.Reached ∧ source.KeysDistinct ∧ s.loadSecondary .empty source = (t, .ok ()) ∧
      ((∃ extra, source.read .empty = .ok extra ∧ FillsGaps extra s t) ∧
        ∀ files' source', PolicySource.read files' source' = source.read .empty →
          t.loadSecondary files' source' = (t, .ok ())) ∧
      t.live.policy.stamp.get? "createdBy" =
        some { name := some "author", nullable := some false } := by
  let primary := overriding "createdBy" [("name", .string "author")]
  let extra := overriding "createdBy" [("name", .string "writer"), ("nullable", .bool false)]
  have distinctPrimary : (Operation.reload (.document primary)).KeysDistinct := by
    rintro _ ⟨⟩
    apply overriding_keysDistinct
    refine .object (by decide) ?_
    intro m member
    rw [List.mem_singleton.1 member]
    exact .string _
  have distinctExtra : (PolicySource.document extra).KeysDistinct := by
    rintro _ ⟨⟩
    apply overriding_keysDistinct
    refine .object (by decide) ?_
    intro m member
    simp only [List.mem_cons, List.not_mem_nil, or_false] at member
    rcases member with rfl | rfl
    · exact .string _
    · exact .bool _
  have reached := Reached.standard.step .empty distinctPrimary
  generalize start : (standard.step .empty (.reload (.document primary))).1 = s at reached
  have accepted : (s.loadSecondary .empty (.document extra)).2 = .ok () := by
    rw [← start]
    rfl
  have loaded : s.loadSecondary .empty (.document extra) = (_, .ok ()) := Prod.ext rfl accepted
  refine ⟨s, _, .document extra, reached, distinctExtra, loaded,
    loadSecondary_fillsGaps reached distinctExtra loaded, ?_⟩
  rw [← start]
  rfl

end PolicyStore

end ChangeAudit
