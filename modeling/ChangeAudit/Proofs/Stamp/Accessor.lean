import ChangeAudit.Proofs.Stamp.Build
import ChangeAudit.Proofs.Text.Capital
import Mathlib.Data.List.Nodup
import Mathlib.Data.List.Pairwise

/-!
# Accessor names

The kept fields of a plan have different names, but their accessors are named after the capitalized
names. Getters and setters never meet, and two fields share a setter exactly if their names become
equal when capitalized, and then also a getter if both or neither of them is a flag
(`StampPlan.accessors_apart`). So there are plans with a getter for two fields
(`StampPlan.accessors_collide`), but none whose fields all begin with a letter from `a` to `z`.
-/

namespace ChangeAudit

open Text (Meet StartsLower)

/-- The two names of an accessor. -/
def Accessor.names (a : Accessor) : List String := [a.getter, a.setter]

namespace StampPlan

/-- The names of all accessors of a plan. -/
def accessorNames (plan : StampPlan) : List String := plan.accessors.flatMap Accessor.names

/-! ## Two accessors -/

section Two

variable {s t : FieldSpec}

theorem getter_ne_setter (s t : FieldSpec) : (accessor s).getter ≠ (accessor t).setter := by
  intro same
  have first := congrArg (fun name : String => name.toList.head?) same
  by_cases flag : s.kind = .flag <;> simp [accessor, flag] at first

theorem setter_eq_iff (differ : s.name ≠ t.name) :
    (accessor s).setter = (accessor t).setter ↔ Meet s.name t.name := by
  rw [← Text.capitalize_eq_iff differ]
  exact String.append_right_inj "set"

/-- What two fields are asked with differs if one of them is a flag. -/
theorem getter_ne_of_flag (flag : s.kind = .flag) (other : t.kind ≠ .flag) :
    (accessor s).getter ≠ (accessor t).getter := by
  intro same
  have first := congrArg (fun name : String => name.toList.head?) same
  simp [accessor, flag, other] at first

theorem getter_eq_iff (differ : s.name ≠ t.name) :
    (accessor s).getter = (accessor t).getter ↔
      Meet s.name t.name ∧ (s.kind = .flag ↔ t.kind = .flag) := by
  rw [← Text.capitalize_eq_iff differ]
  by_cases left : s.kind = .flag
  · by_cases right : t.kind = .flag
    · simp only [accessor, left, right, if_true, String.append_right_inj, and_true]
    · simp only [left, right, iff_false, not_true_eq_false, and_false]
      exact getter_ne_of_flag left right
  · by_cases right : t.kind = .flag
    · simp only [left, right, iff_true, and_false, iff_false]
      exact (getter_ne_of_flag right left).symm
    · simp only [accessor, left, right, if_false, String.append_right_inj, and_true]

/-- Two accessors share a name exactly if they share their setter. -/
theorem disjoint_names_iff (differ : s.name ≠ t.name) :
    List.Disjoint (accessor s).names (accessor t).names ↔ ¬ Meet s.name t.name := by
  rw [← setter_eq_iff differ]
  constructor
  · intro apart same
    exact apart (a := (accessor s).setter) (by simp [Accessor.names])
      (by simp [Accessor.names, same])
  · intro setters name left right
    simp only [Accessor.names, List.mem_cons, List.not_mem_nil, or_false] at left right
    rcases left with rfl | rfl
    · rcases right with same | same
      · exact setters ((setter_eq_iff differ).2 ((getter_eq_iff differ).1 same).1)
      · exact getter_ne_setter s t same
    · rcases right with same | same
      · exact getter_ne_setter t s same.symm
      · exact setters same

end Two

/-! ## The accessors of a plan -/

/-- How far the accessors of a plan are told apart by their names. -/
structure AccessorsApart (plan : StampPlan) : Prop where
  crossed : ∀ s ∈ plan.specs, ∀ t ∈ plan.specs, (accessor s).getter ≠ (accessor t).setter
  setters : ∀ s ∈ plan.specs, ∀ t ∈ plan.specs, s ≠ t →
    ((accessor s).setter = (accessor t).setter ↔ Meet s.name t.name)
  getters : ∀ s ∈ plan.specs, ∀ t ∈ plan.specs, s ≠ t →
    ((accessor s).getter = (accessor t).getter ↔
      Meet s.name t.name ∧ (s.kind = .flag ↔ t.kind = .flag))
  distinct : plan.accessorNames.Nodup ↔
    ∀ s ∈ plan.specs, ∀ t ∈ plan.specs, s ≠ t → ¬ Meet s.name t.name
  lower : (∀ name ∈ plan.fieldNames, StartsLower name) → plan.accessorNames.Nodup

variable {defaults : RoleSpecs} {overrides : OrderedMap StampRole FieldOverride} {plan : StampPlan}

/-- The names are all different exactly if no two fields share their setter. -/
theorem nodup_accessorNames_iff (distinct : plan.fieldNames.Nodup) :
    plan.accessorNames.Nodup ↔
      ∀ s ∈ plan.specs, ∀ t ∈ plan.specs, s ≠ t → ¬ Meet s.name t.name := by
  have two (s : FieldSpec) : (accessor s).names.Nodup := by
    simp [Accessor.names, getter_ne_setter s s]
  have named : plan.specs.Pairwise fun s t => s.name ≠ t.name := List.pairwise_map.1 distinct
  rw [accessorNames, accessors, List.flatMap_map, List.nodup_flatMap]
  constructor
  · rintro ⟨-, disjoint⟩ s left t right
    have symmetric : Std.Symm fun s t : FieldSpec => ¬ Meet s.name t.name :=
      ⟨fun _ _ apart meet => apart meet.symm⟩
    have apart : plan.specs.Pairwise fun s t => ¬ Meet s.name t.name :=
      (named.and disjoint).imp fun both => (disjoint_names_iff both.1).1 both.2
    exact fun differ => apart.forall left right differ
  · intro apart
    refine ⟨fun s _ => two s, named.imp_of_mem ?_⟩
    intro s t left right differ
    have other : s ≠ t := fun same => differ (congrArg FieldSpec.name same)
    exact (disjoint_names_iff differ).2 (apart s left t right other)

/-- **Accessors collide where capitalized names do**: of the accessors of a plan that was built, no
getter is a setter, two fields share a setter exactly if their names become equal by capitalization,
and a getter exactly if moreover both or neither of them is a flag. So the names are all different
exactly if no two fields' names become equal, as where every field begins with a letter from `a` to
`z`. -/
theorem accessors_apart (built : build defaults overrides = .ok plan) : AccessorsApart plan := by
  have distinct := nodup_fieldNames built
  have named {s t : FieldSpec} (left : s ∈ plan.specs) (right : t ∈ plan.specs) (differ : s ≠ t) :
      s.name ≠ t.name := fun same => differ (List.inj_on_of_nodup_map distinct left right same)
  constructor
  · exact fun s _ t _ => getter_ne_setter s t
  · exact fun s left t right differ => setter_eq_iff (named left right differ)
  · exact fun s left t right differ => getter_eq_iff (named left right differ)
  · exact nodup_accessorNames_iff distinct
  · intro lower
    apply (nodup_accessorNames_iff distinct).2
    intro s left t right _
    exact Text.not_meet_of_lower (lower _ (List.mem_map_of_mem left))
      (lower _ (List.mem_map_of_mem right))

/-- An author and a flag of nearly the same name share their setter, but not their getter. -/
theorem accessors_apart_flag : ∃ plan,
    build standardRoles (.ofList [(.createdBy, .rename "author"),
      (.custom "Author", { kind := some .flag })]) = .ok plan ∧
    AccessorsApart plan ∧
    plan.accessors.drop 2 = [⟨"author", "getAuthor", "setAuthor"⟩,
      ⟨"lastUpdatedBy", "getLastUpdatedBy", "setLastUpdatedBy"⟩,
      ⟨"Author", "isAuthor", "setAuthor"⟩] := by
  refine ⟨_, rfl, ?_, rfl⟩
  have built : build standardRoles (.ofList [(.createdBy, .rename "author"),
      (.custom "Author", { kind := some .flag })]) = .ok _ := rfl
  exact accessors_apart built

/-- A plan may be built and offer one getter and one setter for two of its fields. -/
theorem accessors_collide : ∃ plan,
    build standardRoles (.ofList [(.lastUpdated, .rename "DateCreated")]) = .ok plan ∧
    plan.accessors.take 2 = [⟨"dateCreated", "getDateCreated", "setDateCreated"⟩,
      ⟨"DateCreated", "getDateCreated", "setDateCreated"⟩] ∧
    ¬ plan.accessorNames.Nodup :=
  ⟨_, rfl, rfl, by decide +kernel⟩

end StampPlan

end ChangeAudit
