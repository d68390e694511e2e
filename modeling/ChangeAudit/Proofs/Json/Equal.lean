import ChangeAudit.Proofs.Json.Distinct
import Mathlib.Data.List.Forall2

/-!
# What it means that values are equal

Values are equal if they have the same shape with equal parts, where the members of an object may
stand in any order and the two zeros are one number (`Json.Equal`). On values whose objects have no
key twice, that is what `Json.same` decides (`Json.KeysDistinct.same_iff_equal`).
-/

namespace ChangeAudit.Json

/-- Equality of values: of arrays item by item, and of objects key by key, in any order. -/
inductive Equal : Json → Json → Prop where
  | null : Equal .null .null
  | bool (value : Bool) : Equal (.bool value) (.bool value)
  | number {m n : Number} (same : m.same n = true) : Equal (.number m) (.number n)
  | string (text : String) : Equal (.string text) (.string text)
  | array {xs ys : List Json} (size : xs.length = ys.length)
      (items : ∀ x y, (x, y) ∈ xs.zip ys → Equal x y) : Equal (.array xs) (.array ys)
  | object {members others : List (String × Json)}
      (keys : ∀ key, key ∈ Entries.keys members ↔ key ∈ Entries.keys others)
      (values : ∀ key x y, Entries.get? members key = some x → Entries.get? others key = some y →
        Equal x y) : Equal (.object members) (.object others)

theorem sameItems_iff {xs ys : List Json} :
    sameItems xs ys = true ↔
      xs.length = ys.length ∧ ∀ x y, (x, y) ∈ xs.zip ys → x.same y = true := by
  rw [← List.forall₂_iff_zip]
  induction xs generalizing ys with
  | nil => cases ys <;> simp [sameItems]
  | cons x xs ih => cases ys <;> simp [sameItems, ih]

theorem KeysDistinct.equal_of_same {a b : Json} (distinct : a.KeysDistinct)
    (same : a.same b = true) : Equal a b := by
  induction distinct generalizing b with
  | null =>
    cases b with
    | null => exact .null
    | _ => exact absurd same Bool.false_ne_true
  | bool value =>
    cases b with
    | bool other =>
      obtain rfl : value = other := by simpa [Json.same] using same
      exact .bool value
    | _ => exact absurd same Bool.false_ne_true
  | string text =>
    cases b with
    | string other =>
      obtain rfl : text = other := by simpa [Json.same] using same
      exact .string text
    | _ => exact absurd same Bool.false_ne_true
  | number m =>
    cases b with
    | number n => exact .number same
    | _ => exact absurd same Bool.false_ne_true
  | array each ih =>
    cases b with
    | array ys =>
      obtain ⟨size, items⟩ := sameItems_iff.1 same
      refine .array size ?_
      intro x y paired
      exact ih x (List.of_mem_zip paired).1 (items x y paired)
    | _ => exact absurd same Bool.false_ne_true
  | object distinct each ih =>
    cases b with
    | object others =>
      simp only [Json.same, Bool.and_eq_true, decide_eq_true_eq] at same
      have keys := sameMembers_keys distinct same.1 same.2
      refine .object (fun key => keys.mem_iff) ?_
      intro key x y found found'
      have listed := Entries.mem_of_get? found
      obtain ⟨z, there, alike⟩ := sameMembers_iff.1 same.2 (key, x) listed
      obtain rfl : z = y := Option.some.inj (there.symm.trans found')
      exact ih (key, x) listed alike
    | _ => exact absurd same Bool.false_ne_true

theorem KeysDistinct.same_of_equal {a b : Json} (distinct : a.KeysDistinct)
    (distinct' : b.KeysDistinct) (equal : Equal a b) : a.same b = true := by
  induction equal with
  | null => rfl
  | bool => simp [Json.same]
  | string => simp [Json.same]
  | number same => exact same
  | array size items ih =>
    cases distinct with
    | array each =>
      cases distinct' with
      | array each' =>
        refine sameItems_iff.2 ⟨size, ?_⟩
        intro x y paired
        obtain ⟨left, right⟩ := List.of_mem_zip paired
        exact ih x y paired (each x left) (each' y right)
  | object keys values ih =>
    cases distinct with
    | object distinct each =>
      cases distinct' with
      | object distinct' each' =>
        have size := ((List.perm_ext_iff_of_nodup distinct distinct').2 keys).length_eq
        simp only [Entries.keys, List.length_map] at size
        simp only [Json.same, Bool.and_eq_true, decide_eq_true_eq]
        refine ⟨size, sameMembers_iff.2 ?_⟩
        intro m member
        have known := (keys m.1).1 (List.mem_map_of_mem member)
        obtain ⟨y, found⟩ := Option.isSome_iff_exists.1 (Entries.isSome_get?_iff.2 known)
        refine ⟨y, found, ?_⟩
        exact ih m.1 m.2 y (Entries.get?_of_mem distinct member) found (each m member)
          (each' _ (Entries.mem_of_get? found))

/-- On values whose objects have no key twice, `Json.same` decides equality. -/
theorem KeysDistinct.same_iff_equal {a b : Json} (distinct : a.KeysDistinct)
    (distinct' : b.KeysDistinct) : a.same b = true ↔ Equal a b :=
  ⟨distinct.equal_of_same, distinct.same_of_equal distinct'⟩

end ChangeAudit.Json
