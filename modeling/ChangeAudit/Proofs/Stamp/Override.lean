import ChangeAudit.Proofs.Json.Decode
import ChangeAudit.Proofs.Policy.Paths
import ChangeAudit.Stamp.Field

/-!
# Overrides attribute by attribute

An override has five attributes, each with a type of its own and one or two spellings
(`FieldOverride.Attribute`). An object reads as an override if each attribute does
(`FieldOverride.decode?_object_eq_some_iff`), and an attribute reads if it is spelled in one way and
its value is of its type (`FieldOverride.Attribute.isSome_given?_iff`). When one object is laid over
another, an attribute that still reads is the upper one's, if that has it
(`FieldOverride.Attribute.given?_overMembers`).
-/

namespace ChangeAudit

namespace FieldOverride

/-- An attribute of an override. -/
inductive Attribute where
  | name
  | kind
  | nullable
  | excluded
  | sqlType
  deriving DecidableEq

namespace Attribute

/-- How an attribute may be spelled. -/
def spellings : Attribute → List String
  | .name => ["name", "fieldname"]
  | .kind => ["type"]
  | .nullable => ["nullable"]
  | .excluded => ["excluded", "exclude"]
  | .sqlType => ["sqlType"]

/-- What an attribute says. -/
def Value : Attribute → Type
  | .name | .sqlType => String
  | .kind => FieldKind
  | .nullable | .excluded => Bool

/-- Reads the value of an attribute. -/
def read : (a : Attribute) → Term → Option a.Value
  | .name | .sqlType => Term.string?
  | .kind => FieldKind.decode?
  | .nullable | .excluded => Term.bool?

/-- Reads an attribute among the members of an object; null says nothing. -/
def given? (a : Attribute) (members : List (String × Json)) : Option (Option a.Value) :=
  (Term.given? (Json.toMembers members) a.spellings).bind (Term.optional? a.read)

theorem nodup_spellings (a : Attribute) : a.spellings.Nodup := by
  cases a <;> decide

theorem forall_iff {P : Attribute → Prop} :
    (∀ a, P a) ↔ P .name ∧ P .kind ∧ P .nullable ∧ P .excluded ∧ P .sqlType := by
  constructor
  · intro all
    exact ⟨all _, all _, all _, all _, all _⟩
  · rintro ⟨name, kind, nullable, excluded, sqlType⟩ a
    cases a <;> assumption

end Attribute

/-- The attribute of an override. -/
def get (o : FieldOverride) : (a : Attribute) → Option a.Value
  | .name => o.name
  | .kind => o.kind
  | .nullable => o.nullable
  | .excluded => o.excluded
  | .sqlType => o.sqlType

/-- The attributes of the upper override as far as they are given, the lower one's otherwise. -/
def overlay (given : Attribute → Bool) (lower upper : FieldOverride) : FieldOverride where
  name := if given .name then upper.name else lower.name
  kind := if given .kind then upper.kind else lower.kind
  nullable := if given .nullable then upper.nullable else lower.nullable
  excluded := if given .excluded then upper.excluded else lower.excluded
  sqlType := if given .sqlType then upper.sqlType else lower.sqlType

theorem get_overlay (given : Attribute → Bool) (lower upper : FieldOverride) (a : Attribute) :
    (overlay given lower upper).get a = if given a then upper.get a else lower.get a := by
  cases a <;> rfl

theorem ext_get {o o' : FieldOverride} (same : ∀ a, o.get a = o'.get a) : o = o' := by
  obtain ⟨name, kind, nullable, excluded, sqlType⟩ := Attribute.forall_iff.1 same
  cases o
  cases o'
  simp_all [get]

/-- An object reads as an override if each of its attributes reads. -/
theorem decode?_object_eq_some_iff {members : List (String × Json)} {o : FieldOverride} :
    decode? (Json.object members).toTerm = some o ↔
      ∀ a, Attribute.given? a members = some (o.get a) := by
  have readable : (Json.toMembers members).all (fun m => m.1.isSome) = true := by
    rw [Json.toMembers_eq_map, List.all_map]
    exact List.all_eq_true.2 fun _ _ => rfl
  rw [Attribute.forall_iff, decode?, Json.toTerm, Term.fields?, if_pos readable]
  simp only [Attribute.given?, Attribute.spellings, Attribute.read, get, List.mapM_cons,
    List.mapM_nil]
  cases Term.given? (Json.toMembers members) ["name", "fieldname"] with
  | none => simp
  | some name =>
  cases Term.given? (Json.toMembers members) ["type"] with
  | none => simp
  | some kind =>
  cases Term.given? (Json.toMembers members) ["nullable"] with
  | none => simp
  | some nullable =>
  cases Term.given? (Json.toMembers members) ["excluded", "exclude"] with
  | none => simp
  | some excluded =>
  cases Term.given? (Json.toMembers members) ["sqlType"] with
  | none => simp
  | some sqlType =>
    obtain ⟨n, k, u, x, q⟩ := o
    simp only [bind, pure, Option.bind_some, Option.bind_eq_some_iff, Option.some.injEq, mk.injEq]
    constructor
    · rintro ⟨_, readName, _, readKind, _, readNullable, _, readExcluded, _, readType, rfl, rfl,
        rfl, rfl, rfl⟩
      exact ⟨readName, readKind, readNullable, readExcluded, readType⟩
    · rintro ⟨readName, readKind, readNullable, readExcluded, readType⟩
      exact ⟨_, readName, _, readKind, _, readNullable, _, readExcluded, _, readType, rfl, rfl,
        rfl, rfl, rfl⟩

theorem isSome_decode?_object_iff {members : List (String × Json)} :
    (decode? (Json.object members).toTerm).isSome = true ↔
      ∀ a, (Attribute.given? a members).isSome = true := by
  constructor
  · intro read a
    obtain ⟨o, read⟩ := Option.isSome_iff_exists.1 read
    rw [decode?_object_eq_some_iff.1 read a]
    rfl
  · intro all
    obtain ⟨name, kind, nullable, excluded, sqlType⟩ :=
      Attribute.forall_iff.1 fun a => Option.isSome_iff_exists.1 (all a)
    obtain ⟨name, readName⟩ := name
    obtain ⟨kind, readKind⟩ := kind
    obtain ⟨nullable, readNullable⟩ := nullable
    obtain ⟨excluded, readExcluded⟩ := excluded
    obtain ⟨sqlType, readType⟩ := sqlType
    apply Option.isSome_iff_exists.2
    refine ⟨⟨name, kind, nullable, excluded, sqlType⟩, decode?_object_eq_some_iff.2 ?_⟩
    exact Attribute.forall_iff.2 ⟨readName, readKind, readNullable, readExcluded, readType⟩

namespace Attribute

/-! ## One object -/

/-- An object has the attribute, however it is spelled. -/
def givenIn (a : Attribute) (members : List (String × Json)) : Bool :=
  a.spellings.any fun s => (Entries.get? members s).isSome

/-- An object has the attribute under two spellings. -/
def SpelledTwice (a : Attribute) (members : List (String × Json)) : Prop :=
  ∃ s ∈ a.spellings, ∃ t ∈ a.spellings, s ≠ t ∧ (Entries.get? members s).isSome = true ∧
    (Entries.get? members t).isSome = true

/-- A value that the attribute may have, null included. -/
def Takes (a : Attribute) (value : Json) : Prop :=
  (Term.nullable? a.read value.toTerm).isSome = true

theorem given?_eq {members : List (String × Json)} (distinct : (Entries.keys members).Nodup)
    (a : Attribute) :
    a.given? members =
      match Term.spelled members a.spellings with
      | [] => some none
      | [value] => Term.nullable? a.read value.toTerm
      | _ => none := by
  rw [given?, Term.given?_object distinct a.nodup_spellings]
  match Term.spelled members a.spellings with
  | [] => rfl
  | [value] => rfl
  | _ :: _ :: _ => rfl

/-- Of distinct items two are mapped exactly if two values come out. -/
theorem two_le_length_filterMap_iff {α β : Type} {f : α → Option β} {xs : List α}
    (differ : xs.Nodup) :
    2 ≤ (xs.filterMap f).length ↔
      ∃ x ∈ xs, ∃ y ∈ xs, x ≠ y ∧ (f x).isSome = true ∧ (f y).isSome = true := by
  induction xs with
  | nil => simp
  | cons x xs ih =>
    obtain ⟨fresh, differ⟩ := List.nodup_cons.1 differ
    cases first : f x with
    | none =>
      rw [List.filterMap_cons_none first, ih differ]
      constructor
      · rintro ⟨y, inY, z, inZ, rest⟩
        exact ⟨y, List.mem_cons_of_mem _ inY, z, List.mem_cons_of_mem _ inZ, rest⟩
      · rintro ⟨y, inY, z, inZ, differs, mapped, mapped'⟩
        have later {w : α} (member : w ∈ x :: xs) (mapped : (f w).isSome = true) : w ∈ xs := by
          rcases List.mem_cons.1 member with rfl | later
          · rw [first] at mapped
            nomatch mapped
          · exact later
        exact ⟨y, later inY mapped, z, later inZ mapped', differs, mapped, mapped'⟩
    | some value =>
      rw [List.filterMap_cons_some first, List.length_cons, Nat.succ_le_succ_iff,
        Nat.one_le_iff_ne_zero, Ne, List.length_eq_zero_iff, List.filterMap_eq_nil_iff, not_forall]
      simp only [Classical.not_imp, ← Ne.eq_def, ← Option.isSome_iff_ne_none]
      constructor
      · rintro ⟨y, inY, mapped⟩
        refine ⟨x, List.mem_cons_self, y, List.mem_cons_of_mem x inY, ?_, ?_, mapped⟩
        · rintro rfl
          exact fresh inY
        · rw [first]
          rfl
      · rintro ⟨y, inY, z, inZ, differs, mapped, mapped'⟩
        rcases List.mem_cons.1 inY with rfl | later
        · rcases List.mem_cons.1 inZ with rfl | later
          · exact absurd rfl differs
          · exact ⟨z, later, mapped'⟩
        · exact ⟨y, later, mapped⟩

theorem spelledTwice_iff {members : List (String × Json)} {a : Attribute} :
    a.SpelledTwice members ↔ 2 ≤ (Term.spelled members a.spellings).length :=
  (two_le_length_filterMap_iff a.nodup_spellings).symm

/-- An attribute reads if it is spelled in one way at most, and has a value that it takes. -/
theorem isSome_given?_iff {members : List (String × Json)}
    (distinct : (Entries.keys members).Nodup) (a : Attribute) :
    (a.given? members).isSome = true ↔ ¬ a.SpelledTwice members ∧
      ∀ s ∈ a.spellings, ∀ value, Entries.get? members s = some value → a.Takes value := by
  have found (value : Json) : value ∈ Term.spelled members a.spellings ↔
      ∃ s ∈ a.spellings, Entries.get? members s = some value := List.mem_filterMap
  have each : (∀ s ∈ a.spellings, ∀ value, Entries.get? members s = some value → a.Takes value) ↔
      ∀ value ∈ Term.spelled members a.spellings, a.Takes value := by
    constructor
    · intro all value member
      obtain ⟨s, listed, there⟩ := (found value).1 member
      exact all s listed value there
    · intro all s listed value there
      exact all value ((found value).2 ⟨s, listed, there⟩)
  rw [given?_eq distinct, spelledTwice_iff, each]
  match Term.spelled members a.spellings with
  | [] => simp
  | [value] => simp [Takes]
  | _ :: _ :: _ => simp

/-- What an override that reads has for an attribute, the attribute takes. -/
theorem takes_of_decode? {members : List (String × Json)} (distinct : (Entries.keys members).Nodup)
    {o : FieldOverride} (read : decode? (Json.object members).toTerm = some o) {a : Attribute}
    {s : String} (listed : s ∈ a.spellings) {value : Json}
    (found : Entries.get? members s = some value) : a.Takes value := by
  have given := decode?_object_eq_some_iff.1 read a
  have whole := (isSome_given?_iff distinct a).1 (by rw [given]; rfl)
  exact whole.2 s listed value found

/-- An attribute that reads is read from the value that it is found with. -/
theorem given?_of_found {members : List (String × Json)} (distinct : (Entries.keys members).Nodup)
    {a : Attribute} {x : Option a.Value} (h : a.given? members = some x) {s : String}
    (listed : s ∈ a.spellings) {value : Json} (found : Entries.get? members s = some value) :
    Term.nullable? a.read value.toTerm = some x := by
  have member : value ∈ Term.spelled members a.spellings :=
    List.mem_filterMap.2 ⟨s, listed, found⟩
  rw [given?_eq distinct] at h
  split at h
  · next none => simp [none] at member
  · next one =>
    rw [one, List.mem_singleton] at member
    exact member ▸ h
  · nomatch h

/-! ## An object over another one -/

/-- Nothing but a kind is an object, and a kind only with the word as its single member. -/
theorem read_object {a : Attribute} {members : List (String × Json)} {x : a.Value}
    (h : a.read (Json.object members).toTerm = some x) :
    a = .kind ∧ ∃ word, members = [(word, .null)] := by
  cases a with
  | kind =>
    refine ⟨rfl, ?_⟩
    obtain ⟨name, isName, -⟩ := Option.bind_eq_some_iff.1 h
    rw [Json.toTerm, Json.toMembers_eq_map] at isName
    unfold Term.name? at isName
    split at isName
    · next same => cases same
    · next word same =>
      obtain ⟨m, rfl, isWord⟩ := List.map_eq_singleton_iff.1 (Term.object.inj same)
      obtain ⟨key, value⟩ := m
      obtain ⟨isKey, isNull⟩ := Prod.mk.inj isWord
      refine ⟨key, ?_⟩
      cases value <;> simp_all [Json.toTerm]
    · cases isName
  | _ => cases h

/-- A value that reads is what every value in which it is kept reads as, if that reads. -/
theorem read_keptIn {a : Attribute} {old new : Json} (kept : old.KeptIn new) {x y : Option a.Value}
    (h : Term.nullable? a.read old.toTerm = some x)
    (h' : Term.nullable? a.read new.toTerm = some y) : y = x := by
  suffices new = old by
    rw [this, h] at h'
    exact (Option.some.inj h').symm
  by_cases object : old.IsObject
  · obtain ⟨members, rfl⟩ := object
    obtain ⟨z, read, -⟩ := Option.map_eq_some_iff.1 h
    -- the old word stands in the new value, so a new value of one word has this word
    obtain ⟨-, word, rfl⟩ := read_object read
    have old : (Json.object [(word, .null)]).get? word = some .null := by
      simp [Json.get?, Entries.get?]
    obtain ⟨v, there, -⟩ := kept.get? old
    obtain ⟨members, rfl⟩ := Json.isObject_of_get? there
    obtain ⟨w, read', -⟩ := Option.map_eq_some_iff.1 h'
    obtain ⟨-, word', rfl⟩ := read_object read'
    obtain rfl : word' = word := by
      have known := Entries.isSome_get?_iff.1 (Option.isSome_iff_exists.2 ⟨v, there⟩)
      exact (List.mem_singleton.1 known).symm
    rfl
  · exact kept.eq_of_not_isObject object

/-- An object of several members: no attribute has such a value. -/
def Crowded (value : Json) : Prop := ∃ members, value = .object members ∧ 2 ≤ members.length

/-- A value that the attribute takes, or a kind written with several words. -/
def Admits (a : Attribute) (value : Json) : Prop := a.Takes value ∨ a = .kind ∧ Crowded value

theorem not_takes_of_crowded {a : Attribute} {value : Json} (crowded : Crowded value) :
    ¬ a.Takes value := by
  obtain ⟨members, rfl, several⟩ := crowded
  intro takes
  obtain ⟨x, read⟩ := Option.isSome_iff_exists.1 takes
  obtain ⟨y, read, -⟩ := Option.map_eq_some_iff.1 read
  obtain ⟨-, word, rfl⟩ := read_object read
  simp at several

/-- Layering adds words to a kind, and nothing else that an attribute does not take. -/
theorem Takes.layer {a : Attribute} {lower upper : Json} (h : a.Admits lower) (h' : a.Takes upper) :
    a.Admits (lower.layer upper) := by
  by_cases object : upper.IsObject
  · by_cases object' : lower.IsObject
    · obtain ⟨above, rfl⟩ := object
      obtain ⟨below, rfl⟩ := object'
      obtain ⟨x, read⟩ := Option.isSome_iff_exists.1 h'
      obtain ⟨y, read, -⟩ := Option.map_eq_some_iff.1 read
      obtain ⟨isKind, word, rfl⟩ := read_object read
      rw [Json.layer_object]
      rcases h with takes | ⟨-, members, ⟨⟩, several⟩
      · obtain ⟨x', read'⟩ := Option.isSome_iff_exists.1 takes
        obtain ⟨y', read', -⟩ := Option.map_eq_some_iff.1 read'
        obtain ⟨-, word', rfl⟩ := read_object read'
        by_cases same : word' = word
        · subst same
          left
          simpa [Json.overMembers, Json.layerMembers, Entries.get?, Json.layer] using h'
        · right
          refine ⟨isKind, _, rfl, ?_⟩
          simp [Json.overMembers, Json.layerMembers, Entries.get?, same]
      · right
        refine ⟨isKind, _, rfl, ?_⟩
        rw [Json.overMembers, List.length_append, Json.layerMembers_eq_map, List.length_map]
        omega
    · rw [Json.layer_eq_upper_of_lower object' upper]
      exact .inl h'
  · rw [Json.layer_eq_upper lower object]
    exact .inl h'

theorem givenIn_overMembers (a : Attribute) (below above : List (String × Json)) :
    a.givenIn (Json.overMembers below above) = (a.givenIn below || a.givenIn above) := by
  rw [Bool.eq_iff_iff]
  simp only [givenIn, List.any_eq_true, Json.get?_overMembers, Option.isSome_merge, Bool.or_eq_true,
    and_or_left, exists_or]

/-- An attribute that reads in an object over another one is the upper one's, if it is given there,
and the lower one's otherwise. -/
theorem given?_overMembers {a : Attribute} {below above : List (String × Json)}
    (distinct : (Entries.keys below).Nodup) (distinct' : (Entries.keys above).Nodup)
    {x y : Option a.Value} (h : a.given? above = some x)
    (h' : a.given? (Json.overMembers below above) = some y) :
    if a.givenIn above = true then y = x else a.given? below = some y := by
  have found := Json.get?_overMembers below above
  have differ := Json.nodup_keys_overMembers distinct distinct'
  split
  · next given =>
    obtain ⟨s, listed, there⟩ := List.any_eq_true.1 given
    obtain ⟨upper, there⟩ := Option.isSome_iff_exists.1 there
    have read := given?_of_found distinct' h listed there
    -- in the layering the same spelling finds this value, alone or over the one below
    have both := found s
    rw [there] at both
    cases under : Entries.get? below s with
    | none =>
      rw [under, Option.merge_none_left] at both
      have read' := given?_of_found differ h' listed both
      exact Option.some.inj (read'.symm.trans read)
    | some lower =>
      rw [under, Option.merge_some_some] at both
      have read' := given?_of_found differ h' listed both
      exact read_keptIn (Json.keptIn_layer lower upper) read read'
  · next absent =>
    have same : Term.spelled (Json.overMembers below above) a.spellings =
        Term.spelled below a.spellings := by
      apply List.filterMap_congr
      intro s listed
      have gone : Entries.get? above s = none := by
        simpa using fun there => absent (List.any_eq_true.2 ⟨s, listed, there⟩)
      rw [found, gone, Option.merge_none_right]
    rwa [given?_eq distinct, ← same, ← given?_eq differ]

end Attribute

end FieldOverride

end ChangeAudit
