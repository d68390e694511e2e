import ChangeAudit.Json.Decode
import ChangeAudit.Proofs.Json.Distinct
import ChangeAudit.Proofs.Json.Fields
import Mathlib.Data.List.Forall2
import Mathlib.Data.List.Nodup

/-!
# Reading the members of an object

In an object with distinct keys a field is looked up under each of its spellings, and reads if no
more than one of them is there (`Term.given?_object`). A map reads if each of its values does, and
holds them key by key (`Term.isSome_map?_object`, `Term.get?_map?_object`).
-/

namespace ChangeAudit

/-- Options are collected point by point. -/
theorem mapM_eq_some_iff {α β : Type} {f : α → Option β} {xs : List α} {ys : List β} :
    xs.mapM f = some ys ↔ List.Forall₂ (fun x y => f x = some y) xs ys := by
  induction xs generalizing ys with
  | nil =>
    rw [List.forall₂_nil_left_iff, List.mapM_nil]
    exact ⟨fun h => (Option.some.inj h).symm, fun h => h ▸ rfl⟩
  | cons x xs ih =>
    rw [List.mapM_cons, List.forall₂_cons_left_iff]
    simp only [bind, Option.bind_eq_some_iff, pure, Option.some.injEq]
    constructor
    · rintro ⟨y, read, ys, rest, rfl⟩
      exact ⟨y, ys, read, ih.1 rest, rfl⟩
    · rintro ⟨y, ys, read, rest, rfl⟩
      exact ⟨y, read, ys, ih.2 rest, rfl⟩

theorem isSome_mapM_iff {α β : Type} {f : α → Option β} {xs : List α} :
    (xs.mapM f).isSome = true ↔ ∀ x ∈ xs, (f x).isSome = true := by
  induction xs with
  | nil => simp
  | cons x xs ih =>
    rw [List.mapM_cons, List.forall_mem_cons, ← ih]
    cases f x <;> cases xs.mapM f <;> simp [bind, pure]

namespace Term

variable {α : Type} {read : Term → Option α}

/-! ## Fields -/

/-- The values that the members of an object have under some spellings. -/
def spelled (members : List (String × Json)) (spellings : List String) : List Json :=
  spellings.filterMap (Entries.get? members)

theorem filter_spellings_perm {members : List (String × Json)}
    (distinct : (Entries.keys members).Nodup) {spellings : List String} (differ : spellings.Nodup) :
    ((members.filter fun m => spellings.contains m.1).map Prod.snd).Perm
      (spelled members spellings) := by
  have pairs : (members.filter fun m => spellings.contains m.1).Perm
      (spellings.filterMap fun s => (Entries.get? members s).map fun v => (s, v)) := by
    rw [List.perm_ext_iff_of_nodup]
    · rintro ⟨key, value⟩
      simp only [List.mem_filter, List.contains_iff_mem, List.mem_filterMap, Option.map_eq_some_iff,
        Prod.mk.injEq]
      constructor
      · rintro ⟨member, listed⟩
        exact ⟨key, listed, value, Entries.get?_of_mem distinct member, rfl, rfl⟩
      · rintro ⟨_, listed, _, found, rfl, rfl⟩
        exact ⟨Entries.mem_of_get? found, listed⟩
    · exact (List.Nodup.of_map _ distinct).filter _
    · apply differ.filterMap
      rintro s s' ⟨key, value⟩ found found'
      obtain ⟨_, _, ⟨⟩⟩ := Option.map_eq_some_iff.1 found
      obtain ⟨_, _, ⟨⟩⟩ := Option.map_eq_some_iff.1 found'
      rfl
  have values := pairs.map Prod.snd
  rw [List.map_filterMap] at values
  simpa only [spelled, Option.map_map, Function.comp_def, Option.map_id'] using values

/-- A field reads if it is there under no more than one of its spellings. -/
theorem given?_object {members : List (String × Json)} (distinct : (Entries.keys members).Nodup)
    {spellings : List String} (differ : spellings.Nodup) :
    given? (Json.toMembers members) spellings =
      match spelled members spellings with
      | [] => some none
      | [value] => some (some value.toTerm)
      | _ => none := by
  have perm := filter_spellings_perm distinct differ
  have found : (Json.toMembers members).filter (fun m => m.1.any (spellings.contains ·)) =
      (members.filter fun m => spellings.contains m.1).map fun m => (some m.1, m.2.toTerm) := by
    rw [Json.toMembers_eq_map, List.filter_map]
    rfl
  rw [given?, found]
  generalize members.filter (fun m => spellings.contains m.1) = listed at perm
  generalize spelled members spellings = values at perm
  rcases listed with _ | ⟨m, _ | ⟨n, listed⟩⟩
  · obtain rfl := List.nil_perm.1 perm
    rfl
  · obtain rfl := List.singleton_perm.1 perm
    rfl
  · rcases values with _ | ⟨v, _ | ⟨w, values⟩⟩
    · cases perm.length_eq
    · cases perm.length_eq
    · rfl

/-! ## Maps -/

/-- A member that is read keeps its key. -/
theorem member?_eq_some_iff {key : String} {t : Term} {p : String × α} :
    member? read (some key, t) = some p ↔ p.1 = key ∧ read t = some p.2 := by
  obtain ⟨k, v⟩ := p
  rw [member?, Option.map_eq_some_iff]
  constructor
  · rintro ⟨v, readValue, ⟨⟩⟩
    exact ⟨rfl, readValue⟩
  · rintro ⟨rfl, readValue⟩
    exact ⟨v, readValue, rfl⟩

/-- The map that an object reads as, key by key. -/
theorem get?_map?_object {members : List (String × Json)}
    (distinct : (Entries.keys members).Nodup) {m : OrderedMap String α}
    (h : map? read (Json.object members).toTerm = some m) (key : String) :
    m.get? key = (Entries.get? members key).bind fun value => read value.toTerm := by
  rw [Json.toTerm, map?, Json.toMembers_eq_map, Option.map_eq_some_iff] at h
  obtain ⟨pairs, readAll, rfl⟩ := h
  rw [mapM_eq_some_iff, List.forall₂_map_left_iff] at readAll
  have keys : Entries.keys pairs = Entries.keys members := by
    clear distinct
    induction readAll with
    | nil => rfl
    | cons readOne _ ih => exact congrArg₂ List.cons (member?_eq_some_iff.1 readOne).1 ih
  have found : Entries.get? pairs key =
      (Entries.get? members key).bind fun value => read value.toTerm := by
    clear distinct keys
    induction readAll with
    | nil => rfl
    | @cons m p _ _ readOne _ ih =>
      obtain ⟨k, v⟩ := p
      obtain ⟨rfl, readValue⟩ := member?_eq_some_iff.1 readOne
      rw [Entries.get?, Entries.get?, ih]
      split
      · exact readValue.symm
      · rfl
  have entries := Entries.get?_insertAll [] (keys ▸ distinct) key
  rw [OrderedMap.ofList, OrderedMap.get?, OrderedMap.insertAll, OrderedMap.empty]
  simp only [entries, found, Entries.get?, Option.or_none]

/-- A list is read as it was, if its items are. -/
theorem list?_map {write : α → Json} (reads : ∀ x, read (write x).toTerm = some x) (xs : List α) :
    list? read (Json.array (xs.map write)).toTerm = some xs := by
  rw [Json.toTerm, list?, Json.toTerms_eq_map, mapM_eq_some_iff, List.forall₂_map_left_iff,
    List.forall₂_map_left_iff, List.forall₂_same]
  exact fun x _ => reads x

/-- A map is read as it was, if its values are. -/
theorem map?_ofMap {write : α → Json} {m : OrderedMap String α}
    (reads : ∀ e ∈ m.entries, read (write e.2).toTerm = some e.2) :
    map? read (Json.ofMap write m).toTerm = some m := by
  have members : (Json.toMembers (m.entries.map fun e => (e.1, write e.2))).mapM (member? read) =
      some m.entries := by
    rw [Json.toMembers_eq_map, mapM_eq_some_iff, List.forall₂_map_left_iff,
      List.forall₂_map_left_iff, List.forall₂_same]
    exact fun e member => member?_eq_some_iff.2 ⟨rfl, reads e member⟩
  rw [Json.ofMap, Json.toTerm, map?, members, Option.map_some, OrderedMap.ofList_entries]

/-- A map reads if each of its values does. -/
theorem isSome_map?_object {members : List (String × Json)} :
    (map? read (Json.object members).toTerm).isSome = true ↔
      ∀ m ∈ members, (read m.2.toTerm).isSome = true := by
  rw [Json.toTerm, map?, Option.isSome_map, isSome_mapM_iff, Json.toMembers_eq_map,
    List.forall_mem_map]
  simp only [member?, Option.isSome_map]

end Term

end ChangeAudit
