import ChangeAudit.Json.Term
import ChangeAudit.Proofs.OrderedMap
import Mathlib.Data.List.Perm.Subperm

/-!
# Values whose objects have distinct keys

An object that is built member by member has every key once, so `Json.KeysDistinct` holds of all
that is read (`Term.json?_keysDistinct`). Without it equality of values would be neither symmetric nor
reflexive: members are compared from one side, and a repeated key would hide that the other side has
more.
-/

namespace ChangeAudit

namespace Entries

variable {κ α : Type} [DecidableEq κ]

theorem value_of_mem_insert {es : List (κ × α)} {key : κ} {value : α} {e : κ × α}
    (member : e ∈ insert es key value) : e.2 = value ∨ e ∈ es := by
  induction es with
  | nil =>
    rw [insert, List.mem_singleton] at member
    exact .inl (member ▸ rfl)
  | cons first es ih =>
    obtain ⟨k, v⟩ := first
    by_cases same : k = key
    · rw [insert, if_pos same] at member
      rcases List.mem_cons.1 member with rfl | later
      · exact .inl rfl
      · exact .inr (List.mem_cons_of_mem _ later)
    · rw [insert, if_neg same] at member
      rcases List.mem_cons.1 member with rfl | later
      · exact .inr List.mem_cons_self
      · exact (ih later).imp_right (List.mem_cons_of_mem _)

/-- Inserting pairs brings no values but theirs. -/
theorem forall_insertAll {P : α → Prop} {es pairs : List (κ × α)} (old : ∀ e ∈ es, P e.2)
    (new : ∀ p ∈ pairs, P p.2) : ∀ e ∈ insertAll es pairs, P e.2 := by
  induction pairs generalizing es with
  | nil => exact old
  | cons p pairs ih =>
    apply ih
    · intro e member
      rcases value_of_mem_insert member with same | before
      · rw [same]
        exact new p List.mem_cons_self
      · exact old e before
    · intro q member
      exact new q (List.mem_cons_of_mem p member)

end Entries

theorem Number.same_symm {m n : Number} (same : m.same n = true) : n.same m = true := by
  cases m with
  | int i =>
    cases n with
    | int j =>
      simp only [Number.same, decide_eq_true_eq] at same ⊢
      exact same.symm
    | float y => nomatch same
  | float x =>
    cases n with
    | int j => nomatch same
    | float y =>
      simp only [Number.same, Binary64.same, Bool.or_eq_true, Bool.and_eq_true, decide_eq_true_eq,
        beq_iff_eq] at same ⊢
      exact same.imp Eq.symm And.symm

theorem Number.same_refl (n : Number) : n.same n = true := by
  cases n <;> simp [same, Binary64.same]

namespace Json

/-- No object in the value has a key twice. -/
inductive KeysDistinct : Json → Prop where
  | null : KeysDistinct .null
  | bool (value : Bool) : KeysDistinct (.bool value)
  | number (value : Number) : KeysDistinct (.number value)
  | string (text : String) : KeysDistinct (.string text)
  | array {items : List Json} (each : ∀ x ∈ items, KeysDistinct x) : KeysDistinct (.array items)
  | object {members : List (String × Json)} (distinct : (Entries.keys members).Nodup)
      (each : ∀ m ∈ members, KeysDistinct m.2) : KeysDistinct (.object members)

/-! ## Equality of values is symmetric -/

theorem sameItems_symm {xs ys : List Json}
    (symm : ∀ x ∈ xs, ∀ y ∈ ys, x.same y = true → y.same x = true)
    (same : sameItems xs ys = true) : sameItems ys xs = true := by
  induction xs generalizing ys with
  | nil =>
    cases ys with
    | nil => rfl
    | cons y ys => nomatch same
  | cons x xs ih =>
    cases ys with
    | nil => nomatch same
    | cons y ys =>
      simp only [sameItems, Bool.and_eq_true] at same ⊢
      constructor
      · exact symm x List.mem_cons_self y List.mem_cons_self same.1
      · apply ih _ same.2
        intro x inXs y inYs
        exact symm x (List.mem_cons_of_mem _ inXs) y (List.mem_cons_of_mem _ inYs)

theorem sameMembers_iff {members others : List (String × Json)} :
    sameMembers members others = true ↔
      ∀ m ∈ members, ∃ y, Entries.get? others m.1 = some y ∧ m.2.same y = true := by
  induction members with
  | nil => simp [sameMembers]
  | cons m members ih =>
    obtain ⟨key, x⟩ := m
    rw [sameMembers, Bool.and_eq_true, ih, List.forall_mem_cons]
    apply and_congr_left
    intro _
    cases Entries.get? others key <;> simp

/-- An object that has all members of another one, and is not larger, has no other keys. -/
theorem sameMembers_keys {members others : List (String × Json)}
    (distinct : (Entries.keys members).Nodup) (size : members.length = others.length)
    (same : sameMembers members others = true) :
    (Entries.keys members).Perm (Entries.keys others) := by
  rw [sameMembers_iff] at same
  have among : Entries.keys members ⊆ Entries.keys others := by
    intro key known
    obtain ⟨m, member, rfl⟩ := List.mem_map.1 known
    obtain ⟨y, found, -⟩ := same m member
    exact Entries.isSome_get?_iff.1 (by rw [found]; rfl)
  -- distinct keys among as many keys are all of them
  apply (List.subperm_of_subset distinct among).perm_of_length_le
  simp only [Entries.keys, List.length_map, size, Nat.le_refl]

/-- With distinct keys on both sides, as many members on both sides are the same members. -/
theorem sameMembers_symm {members others : List (String × Json)}
    (distinct : (Entries.keys members).Nodup) (distinct' : (Entries.keys others).Nodup)
    (size : members.length = others.length)
    (symm : ∀ m ∈ members, ∀ n ∈ others, m.2.same n.2 = true → n.2.same m.2 = true)
    (same : sameMembers members others = true) : sameMembers others members = true := by
  have all := sameMembers_keys distinct size same
  rw [sameMembers_iff] at same ⊢
  intro n member
  have known : n.1 ∈ Entries.keys members := all.mem_iff.2 (List.mem_map.2 ⟨n, member, rfl⟩)
  obtain ⟨x, found⟩ := Option.isSome_iff_exists.1 (Entries.isSome_get?_iff.2 known)
  have listed := Entries.mem_of_get? found
  obtain ⟨y, found', alike⟩ := same (n.1, x) listed
  have other : Entries.get? others n.1 = some n.2 := Entries.get?_of_mem distinct' member
  have back : y = n.2 := Option.some.inj (found'.symm.trans other)
  exact ⟨x, found, symm (n.1, x) listed n member (back ▸ alike)⟩

theorem KeysDistinct.same_symm {a b : Json} (distinct : a.KeysDistinct) (distinct' : b.KeysDistinct)
    (same : a.same b = true) : b.same a = true := by
  induction distinct generalizing b with
  | null => cases b <;> simp_all [Json.same]
  | bool => cases b <;> simp_all [Json.same]
  | string => cases b <;> simp_all [Json.same]
  | number m =>
    cases b with
    | number n => exact Number.same_symm same
    | _ => nomatch same
  | array each ih =>
    cases distinct' with
    | array each' =>
      rw [Json.same] at same ⊢
      apply sameItems_symm _ same
      intro x inXs y inYs
      exact ih x inXs (each' y inYs)
    | _ => nomatch same
  | object distinct each ih =>
    cases distinct' with
    | object distinct' each' =>
      simp only [Json.same, Bool.and_eq_true, decide_eq_true_eq] at same ⊢
      refine ⟨same.1.symm, sameMembers_symm distinct distinct' same.1 ?_ same.2⟩
      intro m member n member'
      exact ih m member (each' n member')
    | _ => nomatch same

/-! ## Equality of values is reflexive -/

theorem sameItems_refl {xs : List Json} (each : ∀ x ∈ xs, x.same x = true) :
    sameItems xs xs = true := by
  induction xs with
  | nil => rfl
  | cons x xs ih =>
    obtain ⟨first, later⟩ := List.forall_mem_cons.1 each
    rw [sameItems, first, ih later, Bool.and_self]

/-- Every value is equal to itself. Of a repeated key only the first member would be found. -/
theorem KeysDistinct.same_refl {a : Json} (distinct : a.KeysDistinct) : a.same a = true := by
  induction distinct with
  | null => rfl
  | bool => simp [Json.same]
  | string => simp [Json.same]
  | number n => exact n.same_refl
  | array each ih => exact sameItems_refl ih
  | object distinct each ih =>
    rw [Json.same, decide_eq_true rfl, Bool.true_and, sameMembers_iff]
    intro m member
    exact ⟨m.2, Entries.get?_of_mem distinct member, ih m member⟩

theorem KeysDistinct.same_comm {a b : Json} (distinct : a.KeysDistinct)
    (distinct' : b.KeysDistinct) : a.same b = b.same a :=
  Bool.eq_iff_iff.2 ⟨distinct.same_symm distinct', distinct'.same_symm distinct⟩

theorem null_same (a : Json) : Json.null.same a = a.isNull := by
  cases a <;> rfl

theorem same_null (a : Json) : a.same .null = a.isNull := by
  cases a <;> rfl

end Json

/-! ## What is read has distinct keys -/

namespace Term

open Json (KeysDistinct)

mutual

theorem json?_keysDistinct : ∀ (t : Term) (j : Json), t.json? = some j → j.KeysDistinct
  | .null, _, h => by cases h; exact .null
  | .bool _, _, h => by cases h; exact .bool _
  | .number _, _, h => by cases h; exact .number _
  | .string _, _, h => by cases h; exact .string _
  | .unreadable, _, h => nomatch h
  | .array items, j, h => by
    rw [json?] at h
    split at h
    · next xs read =>
      cases h
      exact .array (jsonItems?_keysDistinct items xs read)
    · nomatch h
  | .object members, j, h => by
    rw [json?] at h
    split at h
    · next ms read =>
      cases h
      apply KeysDistinct.object (Entries.nodup_keys_insertAll (by simp [Entries.keys]) ms)
      apply Entries.forall_insertAll
      · intro e member
        nomatch member
      · exact jsonMembers?_keysDistinct members ms read
    · nomatch h

theorem jsonItems?_keysDistinct : ∀ (ts : List Term) (xs : List Json), jsonItems? ts = some xs →
    ∀ x ∈ xs, x.KeysDistinct
  | [], _, h => by cases h; intro x member; nomatch member
  | t :: ts, xs, h => by
    rw [jsonItems?] at h
    split at h
    · next first rest read readRest =>
      cases h
      intro x member
      rcases List.mem_cons.1 member with rfl | later
      · exact json?_keysDistinct t x read
      · exact jsonItems?_keysDistinct ts rest readRest x later
    · nomatch h

theorem jsonMembers?_keysDistinct : ∀ (ts : List (Option String × Term))
    (ms : List (String × Json)), jsonMembers? ts = some ms → ∀ m ∈ ms, m.2.KeysDistinct
  | [], _, h => by cases h; intro m member; nomatch member
  | (key, t) :: ts, ms, h => by
    unfold jsonMembers? at h
    split at h
    · next k value rest read readRest =>
      cases h
      intro m member
      rcases List.mem_cons.1 member with rfl | later
      · exact json?_keysDistinct t value read
      · exact jsonMembers?_keysDistinct ts rest readRest m later
    · nomatch h

end

end Term

theorem Json.parse?_keysDistinct {text : String} {j : Json} (h : Json.parse? text = some j) :
    j.KeysDistinct := by
  obtain ⟨t, -, read⟩ := Option.bind_eq_some_iff.1 h
  exact Term.json?_keysDistinct t j read

end ChangeAudit
