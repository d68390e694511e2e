import ChangeAudit.Proofs.OrderedMap
import ChangeAudit.Stamp.Plan

/-!
# Every kept role has a field of its own

`keepFields` adds a role only if no role kept so far has a field of its name, so the fields of a plan
that was built keep their roles apart (`StampPlan.build_separate`), however the roles were renamed.
-/

namespace ChangeAudit

/-- No two roles share a field name. -/
def RoleSpecs.Separate (specs : RoleSpecs) : Prop :=
  ∀ role other spec spec', specs.get? role = some spec → specs.get? other = some spec' →
    spec.name = spec'.name → role = other

namespace StampPlan

theorem owner?_eq_none {kept : List (StampRole × FieldSpec)} {field : String}
    (free : owner? kept field = none) {role : StampRole} {spec : FieldSpec}
    (member : (role, spec) ∈ kept) : spec.name ≠ field := by
  rw [owner?, Option.map_eq_none_iff, List.find?_eq_none] at free
  have other := free _ member
  simpa using other

/-- A role with a field name that nobody has joins without a clash. -/
theorem separate_insert {kept : RoleSpecs} (separate : kept.Separate) (role : StampRole)
    {spec : FieldSpec} (free : owner? kept.entries spec.name = none) :
    RoleSpecs.Separate (kept.insert role spec) := by
  have fresh {other : StampRole} {old : FieldSpec} (found : kept.get? other = some old) :
      old.name ≠ spec.name := owner?_eq_none free (Entries.mem_of_get? found)
  intro a b s t hs ht same
  rw [OrderedMap.get?_insert] at hs ht
  by_cases left : role = a
  · by_cases right : role = b
    · exact left.symm.trans right
    · rw [if_pos left, Option.some.injEq] at hs
      rw [if_neg right] at ht
      subst hs
      exact absurd same.symm (fresh ht)
  · rw [if_neg left] at hs
    by_cases right : role = b
    · rw [if_pos right, Option.some.injEq] at ht
      subst ht
      exact absurd same (fresh hs)
    · rw [if_neg right] at ht
      exact separate a b s t hs ht same

theorem keepFields_separate {kept fields : RoleSpecs} {roles : List (StampRole × FieldSpec)}
    (separate : kept.Separate) (keep : keepFields kept roles = .ok fields) : fields.Separate := by
  induction roles generalizing kept with
  | nil =>
    cases keep
    exact separate
  | cons r roles ih =>
    obtain ⟨role, spec⟩ := r
    rw [keepFields] at keep
    split at keep
    · exact ih separate keep
    · split at keep
      · nomatch keep
      · rename_i free
        exact ih (separate_insert separate role free) keep

theorem build_separate {defaults : RoleSpecs} {overrides : OrderedMap StampRole FieldOverride}
    {plan : StampPlan} (built : build defaults overrides = .ok plan) : plan.fields.Separate := by
  rw [build] at built
  split at built
  · nomatch built
  · split at built
    · nomatch built
    · rename_i kept
      cases built
      refine keepFields_separate ?_ kept
      intro role other spec spec' found
      nomatch found

/-- Roles of a plan that has been built write to different fields. -/
theorem role_of_fieldName? {plan : StampPlan} (separate : plan.fields.Separate)
    {role other : StampRole} {field : String} (left : plan.fieldName? role = some field)
    (right : plan.fieldName? other = some field) : role = other := by
  rw [fieldName?, Option.map_eq_some_iff] at left right
  obtain ⟨spec, found, named⟩ := left
  obtain ⟨spec', found', named'⟩ := right
  exact separate role other spec spec' found found' (named.trans named'.symm)

end StampPlan

end ChangeAudit
