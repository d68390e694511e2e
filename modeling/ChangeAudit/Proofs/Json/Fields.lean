import ChangeAudit.Json.Decode
import ChangeAudit.Json.Encode
import ChangeAudit.Proofs.Json.Distinct
import ChangeAudit.Proofs.Json.RoundTrip

/-!
# Structs are read back field by field

`Term.fields?` finds in the document of a struct what `Json.struct` was given for each field, in the
order in which it asks, if each list of spellings fits the name of its own field and of no other
(`Term.fields?_struct`).
-/

namespace ChangeAudit

namespace Json

theorem toMembers_eq_map (ms : List (String × Json)) :
    toMembers ms = ms.map fun m => (some m.1, toTerm m.2) := by
  induction ms with
  | nil => rfl
  | cons m ms ih => rw [toMembers, ih, List.map_cons]

theorem toTerms_eq_map (xs : List Json) : toTerms xs = xs.map toTerm := by
  induction xs with
  | nil => rfl
  | cons x xs ih => rw [toTerms, ih, List.map_cons]

/-- The members that the fields of a struct leave, as written. -/
theorem toMembers_fields (fields : List (String × Option Json)) :
    toMembers (fields.filterMap fun f => f.2.map fun v => (f.1, v)) =
      fields.filterMap fun f => f.2.map fun v => (some f.1, v.toTerm) := by
  rw [toMembers_eq_map, List.map_filterMap]
  congr 1
  funext f
  rw [Option.map_map]
  rfl

theorem legibleMembers_eq_all (ms : List (String × Json)) (room : Nat) :
    legibleMembers ms room = ms.all fun m => legible m.2 room := by
  induction ms with
  | nil => rfl
  | cons m ms ih => rw [legibleMembers, ih, List.all_cons]

/-- What the document of a struct has under a key is the value of that field. -/
theorem get?_struct {fields : List (String × Option Json)}
    (distinct : (Entries.keys fields).Nodup) (key : String) :
    (struct fields).get? key = (Entries.get? fields key).join := by
  induction fields with
  | nil => rfl
  | cons f fields ih =>
    obtain ⟨name, value⟩ := f
    obtain ⟨fresh, distinct⟩ := List.nodup_cons.1 distinct
    have later := ih distinct
    rw [struct, get?] at later ⊢
    cases value with
    | none =>
      rw [List.filterMap_cons_none rfl, later, Entries.get?]
      split
      · next same =>
        subst same
        have absent : Entries.get? fields name = none := Entries.get?_eq_none_of_not_mem fresh
        rw [absent]
        rfl
      · rfl
    | some v =>
      rw [List.filterMap_cons, Option.map_some, Entries.get?, Entries.get?]
      split
      · rfl
      · exact later

theorem keysDistinct_struct {fields : List (String × Option Json)}
    (distinct : (Entries.keys fields).Nodup)
    (each : ∀ f ∈ fields, ∀ v, f.2 = some v → v.KeysDistinct) : (struct fields).KeysDistinct := by
  apply KeysDistinct.object
  · have among : (Entries.keys (fields.filterMap fun f => f.2.map fun v => (f.1, v))).Sublist
        (Entries.keys fields) := by
      clear distinct each
      induction fields with
      | nil => exact .slnil
      | cons f fields ih =>
        obtain ⟨name, value⟩ := f
        cases value with
        | none => exact ih.cons name
        | some v => exact ih.cons_cons name
    exact distinct.sublist among
  · intro m member
    obtain ⟨f, listed, found⟩ := List.mem_filterMap.1 member
    obtain ⟨v, given, rfl⟩ := Option.map_eq_some_iff.1 found
    exact each f listed v given

theorem keysDistinct_strings (xs : List String) : (strings xs).KeysDistinct := by
  apply KeysDistinct.array
  intro x listed
  obtain ⟨s, -, rfl⟩ := List.mem_map.1 listed
  exact .string s

theorem keysDistinct_ofMap {α : Type} {write : α → Json} (each : ∀ v, (write v).KeysDistinct)
    (m : OrderedMap String α) : (ofMap write m).KeysDistinct := by
  apply KeysDistinct.object
  · rw [Entries.keys, List.map_map]
    exact m.nodup
  · intro e member
    obtain ⟨e, -, rfl⟩ := List.mem_map.1 member
    exact each e.2

theorem legibleItems_eq_all (xs : List Json) (room : Nat) :
    legibleItems xs room = xs.all (legible · room) := by
  induction xs with
  | nil => rfl
  | cons x xs ih => rw [legibleItems, ih, List.all_cons]

theorem legible_strings (xs : List String) (room : Nat) :
    (strings xs).legible (room + 1) = true := by
  rw [strings, legible, legibleItems_eq_all, List.all_map, List.all_eq_true]
  intro s _
  rfl

theorem legible_ofMap {α : Type} {write : α → Json} {room : Nat} {m : OrderedMap String α}
    (each : ∀ e ∈ m.entries, (write e.2).legible room = true) :
    (ofMap write m).legible (room + 1) = true := by
  rw [ofMap, legible, legibleMembers_eq_all, List.all_map, List.all_eq_true]
  exact each

/-- A struct is legible if its values are, one level further in. -/
theorem legible_struct {fields : List (String × Option Json)} {room : Nat}
    (h : (fields.all fun f => f.2.all (legible · room)) = true) :
    (struct fields).legible (room + 1) = true := by
  rw [struct, legible, legibleMembers_eq_all, List.all_filterMap]
  refine (congrArg fields.all (funext fun f => ?_)).trans h
  cases f.2 <;> rfl

theorem legible_optional_string (o : Option String) (room : Nat) :
    (o.map Json.string).all (legible · room) = true := by
  cases o <;> rfl

theorem legible_nat {n : Nat} (h : n < 2 ^ 64) (room : Nat) : (nat n).legible room = true := by
  rw [nat, legible]
  exact Number.isInteger64_natCast h

end Json

namespace Term

variable {fields : List (String × Option Json)}

/-- What the spellings of a field find among the members of a struct. -/
theorem given?_struct {f : String × Option Json} {spellings : List String} (listed : f ∈ fields)
    (fits : (fields.map (·.1)).filter spellings.contains = [f.1]) :
    given? (fields.filterMap fun f => f.2.map fun v => (some f.1, v.toTerm)) spellings =
      some (f.2.map Json.toTerm) := by
  have spelled : spellings.contains f.1 = true := by
    have member : f.1 ∈ (fields.map (·.1)).filter spellings.contains := by
      rw [fits]
      exact List.mem_singleton_self f.1
    exact (List.mem_filter.1 member).2
  have only : fields.filter (spellings.contains ·.1) = [f] := by
    rw [List.filter_map] at fits
    obtain ⟨g, alone, -⟩ := List.map_eq_singleton_iff.1 fits
    have member : f ∈ fields.filter (spellings.contains ·.1) := List.mem_filter.2 ⟨listed, spelled⟩
    rw [show fields.filter (spellings.contains ·.1) = [g] from alone, List.mem_singleton] at member
    rw [member]
    exact alone
  have found : (fields.filterMap fun f => f.2.map fun v => (some f.1, v.toTerm)).filter
      (fun m => m.1.any (spellings.contains ·)) =
        (fields.filter (spellings.contains ·.1)).filterMap fun f =>
          f.2.map fun v => (some f.1, v.toTerm) := by
    rw [List.filter_filterMap, List.filterMap_filter]
    congr 1
    funext f
    cases f.2 with
    | none => simp
    | some v => simp [Option.filter]
  rw [given?, found, only]
  cases given : f.2 <;> simp [given]

/-- The fields asked for one after the other, each among the members of all. -/
theorem mapM_given?_struct {asked : List (String × Option Json)} {names : List (List String)}
    (listed : ∀ f ∈ asked, f ∈ fields)
    (fits : names.map (fun spellings => (fields.map (·.1)).filter spellings.contains) =
      asked.map fun f => [f.1]) :
    names.mapM (given? (fields.filterMap fun f => f.2.map fun v => (some f.1, v.toTerm))) =
      some (asked.map fun f => f.2.map Json.toTerm) := by
  induction asked generalizing names with
  | nil =>
    rw [List.map_nil, List.map_eq_nil_iff] at fits
    subst fits
    rfl
  | cons f asked ih =>
    obtain ⟨spellings, names, rfl, first, later⟩ := List.map_eq_cons_iff.1 fits
    have given := given?_struct (listed f List.mem_cons_self) first
    have rest := ih (fun g member => listed g (List.mem_cons_of_mem f member)) later
    rw [List.mapM_cons, given, rest]
    rfl

/-- A struct gives for each field what it was built from. -/
theorem fields?_struct {names : List (List String)}
    (fits : names.map (fun spellings => (fields.map (·.1)).filter spellings.contains) =
      fields.map fun f => [f.1]) :
    (Json.struct fields).toTerm.fields? names = some (fields.map fun f => f.2.map Json.toTerm) := by
  have readable : (fields.filterMap fun f => f.2.map fun v => (some f.1, v.toTerm)).all
      (fun m => m.1.isSome) = true := by
    rw [List.all_eq_true]
    intro m member
    obtain ⟨f, -, found⟩ := List.mem_filterMap.1 member
    obtain ⟨v, -, rfl⟩ := Option.map_eq_some_iff.1 found
    rfl
  rw [Json.struct, Json.toTerm, Json.toMembers_fields, fields?, if_pos readable]
  exact mapM_given?_struct (fun _ member => member) fits

/-- An optional field is read as it was, if its value is. -/
theorem optional?_map {α : Type} {read : Term → Option α} {write : α → Json} {o : Option α}
    (reads : ∀ x, o = some x → nullable? read (write x).toTerm = some (some x)) :
    optional? read ((o.map write).map Json.toTerm) = some o := by
  cases o with
  | none => rfl
  | some x => exact reads x rfl

/-- An optional text is read as it was. -/
theorem optional?_string (o : Option String) :
    optional? string? ((o.map Json.string).map Json.toTerm) = some o :=
  optional?_map fun _ _ => rfl

end Term

end ChangeAudit
