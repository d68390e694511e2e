import ChangeAudit.Text.Capital

/-!
# Names that become equal

`capitalize` is not injective: characters can share their upper case, and the upper case of one can
be the beginning of that of another (as `S` is of `SS`, the upper case of `ß`). These are the only
ways in which different names become equal (`capitalize_eq_iff`), and neither is open to names that
begin with a letter from `a` to `z` (`not_meet_of_lower`).
-/

namespace ChangeAudit.Text

theorem upper_ne_nil (c : Char) : upper c ≠ [] := by
  unfold upper
  split
  · rename_i codes found
    have some_text : ∀ e ∈ upperTexts, e.2 ≠ [] := by decide
    obtain ⟨before, after, split, -⟩ := List.lookup_eq_some_iff.1 found
    have member : (c.toNat, codes) ∈ upperTexts := by rw [split]; simp
    simpa using some_text _ member
  · split <;> simp

theorem toList_capitalize (text : String) :
    (capitalize text).toList = match text.toList with
      | [] => []
      | c :: cs => upper c ++ cs := by
  unfold capitalize
  split <;> simp [*]

/-- The second name begins with a character whose upper case is that of the first name's first
character and maybe more, and the first name goes on with what it is more, and the rest of the
second. -/
def MeetsLonger (a b : String) : Prop :=
  ∃ c d more rest, c ≠ d ∧ a.toList = c :: (more ++ rest) ∧ b.toList = d :: rest ∧
    upper d = upper c ++ more

/-- The names differ in their first characters, and that is no difference in upper case. -/
def Meet (a b : String) : Prop := MeetsLonger a b ∨ MeetsLonger b a

theorem Meet.symm {a b : String} (meet : Meet a b) : Meet b a := Or.symm meet

theorem MeetsLonger.capitalize_eq {a b : String} (meets : MeetsLonger a b) :
    capitalize a = capitalize b := by
  obtain ⟨c, d, more, rest, -, left, right, same⟩ := meets
  rw [← String.toList_inj, toList_capitalize, toList_capitalize, left, right]
  simp [same]

theorem Meet.capitalize_eq {a b : String} (meet : Meet a b) : capitalize a = capitalize b :=
  meet.elim MeetsLonger.capitalize_eq fun other => other.capitalize_eq.symm

/-- Different names become equal exactly if they meet. -/
theorem capitalize_eq_iff {a b : String} (differ : a ≠ b) :
    capitalize a = capitalize b ↔ Meet a b := by
  refine ⟨?_, Meet.capitalize_eq⟩
  intro same
  rw [← String.toList_inj, toList_capitalize, toList_capitalize] at same
  cases left : a.toList with
  | nil =>
    cases right : b.toList with
    | nil => exact absurd (String.toList_inj.1 (left.trans right.symm)) differ
    | cons d ds =>
      rw [left, right] at same
      exact absurd (List.append_eq_nil_iff.1 same.symm).1 (upper_ne_nil d)
  | cons c cs =>
    cases right : b.toList with
    | nil =>
      rw [left, right] at same
      exact absurd (List.append_eq_nil_iff.1 same).1 (upper_ne_nil c)
    | cons d ds =>
      rw [left, right] at same
      have first : c ≠ d := by
        rintro rfl
        apply differ
        rw [← String.toList_inj, left, right, List.append_cancel_left same]
      rcases List.append_eq_append_iff.1 same with ⟨more, longer, rfl⟩ | ⟨more, longer, rfl⟩
      · exact .inl ⟨c, d, more, ds, first, left, right, longer⟩
      · exact .inr ⟨d, c, more, cs, first.symm, right, left, longer⟩

/-! ## Names in lower case -/

/-- The name begins with a letter from `a` to `z`. -/
def StartsLower (name : String) : Prop := ∃ c cs, name.toList = c :: cs ∧ c.isLower = true

theorem toNat_of_isLower {c : Char} (lower : c.isLower = true) : 97 ≤ c.toNat ∧ c.toNat ≤ 122 := by
  obtain ⟨low, high⟩ := (Bool.and_eq_true _ _).mp lower
  exact ⟨of_decide_eq_true low, of_decide_eq_true high⟩

theorem map_toNat_upper {c : Char} (lower : c.isLower = true) :
    (upper c).map Char.toNat = [c.toNat - 32] := by
  have table : ∀ n, n < 123 → 97 ≤ n →
      (upper (Char.ofNat n)).map Char.toNat = [n - 32] := by decide +kernel
  obtain ⟨low, high⟩ := toNat_of_isLower lower
  have entry := table c.toNat (by omega) low
  rwa [Char.ofNat_toNat] at entry

theorem MeetsLonger.not_lower {a b : String} (meets : MeetsLonger a b) (left : StartsLower a)
    (right : StartsLower b) : False := by
  obtain ⟨c, d, more, rest, differ, isA, isB, longer⟩ := meets
  obtain ⟨_, _, isA', lowerC⟩ := left
  obtain ⟨_, _, isB', lowerD⟩ := right
  obtain ⟨rfl, -⟩ := List.cons.inj (isA.symm.trans isA')
  obtain ⟨rfl, -⟩ := List.cons.inj (isB.symm.trans isB')
  have codes := congrArg (List.map Char.toNat) longer
  rw [List.map_append, map_toNat_upper lowerC, map_toNat_upper lowerD, List.singleton_append] at codes
  obtain ⟨same, -⟩ := List.cons.inj codes
  have lowC := toNat_of_isLower lowerC
  have lowD := toNat_of_isLower lowerD
  exact differ (Char.toNat_inj.1 (by omega))

theorem not_meet_of_lower {a b : String} (left : StartsLower a) (right : StartsLower b) :
    ¬ Meet a b := by
  rintro (meets | meets)
  · exact meets.not_lower left right
  · exact meets.not_lower right left

/-- One character can become what two others are. -/
example : capitalize "ßigned" = capitalize "SSigned" := rfl

end ChangeAudit.Text
