import ChangeAudit.Proofs.Stamp.Build
import Mathlib.Data.List.Perm.Basic

/-!
# The order of overrides

How documents are layered decides the order of the overrides they give. It decides little: which one
of several faults of a kind is named, and where the roles stand that only overrides name
(`StampPlan.build_of_perm`). A role has one override at most, so the merged roles are the same up to
the places of those that are added, and whether two of them share a field does not depend on places.
-/

namespace ChangeAudit.StampPlan

/-- Results that are the same for any order of the overrides, apart from what the order decides: the
fault that is named, and the places of the roles that have no default. -/
inductive Reordered (defaults : RoleSpecs) :
    Except StampFault StampPlan → Except StampFault StampPlan → Prop where
  | unknownRole (role role' : String) :
      Reordered defaults (.error (.unknownRole role)) (.error (.unknownRole role'))
  | conflict (field first second field' first' second' : String) :
      Reordered defaults (.error (.conflict field first second))
        (.error (.conflict field' first' second'))
  | built {plan plan' : StampPlan} (fields : ∀ role, plan.field? role = plan'.field? role)
      (order : plan.fields.keys.filter defaults.contains =
        plan'.fields.keys.filter defaults.contains) :
      Reordered defaults (.ok plan) (.ok plan')

section Merged

variable {defaults : RoleSpecs} {overrides others : Overrides}

theorem unknown?_eq_none_of_perm (defaults : RoleSpecs) (same : overrides.Perm others) :
    unknown? defaults overrides = none ↔ unknown? defaults others = none := by
  simp only [unknown?, Option.map_eq_none_iff, List.find?_eq_none, same.mem_iff]

theorem keptRoles_perm (distinct : (Entries.keys overrides).Nodup) (same : overrides.Perm others) :
    (keptRoles defaults overrides).Perm (keptRoles defaults others) := by
  have merged : (mergedRoles defaults overrides).Perm (mergedRoles defaults others) := by
    simp only [mergedRoles, Entries.get?_of_perm distinct same]
    exact (same.filterMap (added? defaults)).append_left _
  exact merged.filter _

/-- The merged roles that have a default are the defaults, in their order. -/
theorem filter_mergedRoles (defaults : RoleSpecs) (overrides : Overrides) :
    (mergedRoles defaults overrides).filter (fun e => defaults.contains e.1) =
      defaults.entries.map fun e => (e.1, e.2.under (Entries.get? overrides e.1)) := by
  have known : ∀ e ∈ defaults.entries.map (fun e => (e.1, e.2.under (Entries.get? overrides e.1))),
      defaults.contains e.1 = true := by
    intro e member
    obtain ⟨entry, listed, rfl⟩ := List.mem_map.1 member
    exact OrderedMap.contains_iff_mem_keys.2 (List.mem_map.2 ⟨entry, listed, rfl⟩)
  have new : ∀ e ∈ overrides.filterMap (added? defaults), ¬ defaults.contains e.1 = true := by
    intro e member
    obtain ⟨o, -, added⟩ := List.mem_filterMap.1 member
    unfold added? at added
    split at added
    · cases added
    · rename_i unknown
      obtain ⟨kind, -, rfl⟩ := Option.map_eq_some_iff.1 added
      exact unknown
  rw [mergedRoles, List.filter_append, List.filter_eq_self.2 known, List.filter_eq_nil_iff.2 new,
    List.append_nil]

/-- The kept roles that have a default stand in the order of the defaults. -/
theorem filter_keptRoles (distinct : (Entries.keys overrides).Nodup)
    (same : overrides.Perm others) :
    (keptRoles defaults overrides).filter (fun e => defaults.contains e.1) =
      (keptRoles defaults others).filter fun e => defaults.contains e.1 := by
  rw [keptRoles, keptRoles, List.filter_comm, filter_mergedRoles, List.filter_comm,
    filter_mergedRoles]
  simp only [Entries.get?_of_perm distinct same]

end Merged

variable {defaults : RoleSpecs} {a b : OrderedMap StampRole FieldOverride}

theorem exists_build_iff : (∃ plan, build defaults a = .ok plan) ↔
    unknown? defaults a.entries = none ∧ (names (keptRoles defaults a.entries)).Nodup := by
  constructor
  · rintro ⟨plan, built⟩
    obtain ⟨known, distinct, -⟩ := build_eq_ok_iff.1 built
    exact ⟨known, distinct⟩
  · rintro ⟨known, distinct⟩
    rcases build_cases defaults a with
      ⟨role, unknown, -⟩ | ⟨-, _, _, _, clash, -⟩ | ⟨-, -, plan, built, -⟩
    · rw [known] at unknown
      nomatch unknown
    · exact absurd distinct clash.not_nodup
    · exact ⟨plan, built⟩

/-- Plans of the same overrides in different orders have the same fields, and the roles with a
default in the same order. -/
theorem Reordered.of_built (same : a.entries.Perm b.entries) {plan plan' : StampPlan}
    (left : build defaults a = .ok plan) (right : build defaults b = .ok plan') :
    Reordered defaults (.ok plan) (.ok plan') := by
  obtain ⟨-, -, entries⟩ := build_eq_ok_iff.1 left
  obtain ⟨-, -, entries'⟩ := build_eq_ok_iff.1 right
  apply Reordered.built
  · intro role
    apply Entries.get?_of_perm plan.fields.nodup
    rw [entries, entries']
    exact keptRoles_perm a.nodup same
  · rw [OrderedMap.keys, OrderedMap.keys, Entries.keys, Entries.keys, List.filter_map,
      List.filter_map, entries, entries']
    exact congrArg (List.map Prod.fst) (filter_keptRoles a.nodup same)

/-- **The order of overrides does not matter**: with the same overrides in another order a plan is
built exactly if it was before, with the same field for each role and the roles that have a default
in the same order, and otherwise it fails with a fault of the same kind. -/
theorem build_of_perm (defaults : RoleSpecs) (same : a.entries.Perm b.entries) :
    Reordered defaults (build defaults a) (build defaults b) := by
  have known := unknown?_eq_none_of_perm defaults same
  have apart : (names (keptRoles defaults a.entries)).Nodup ↔
      (names (keptRoles defaults b.entries)).Nodup :=
    ((keptRoles_perm a.nodup same).map _).nodup_iff
  rcases build_cases defaults a with
    ⟨role, unknown, failed⟩ | ⟨none, _, _, _, clash, failed⟩ | ⟨none, distinct, plan, built, -⟩
  · have unknown' : unknown? defaults b.entries ≠ none := by
      rw [Ne, ← known, unknown]
      exact Option.some_ne_none role
    obtain ⟨role', unknown'⟩ := Option.ne_none_iff_exists'.1 unknown'
    rw [failed, build_eq_unknownRole_iff.2 ⟨role', unknown', rfl⟩]
    exact .unknownRole _ _
  · obtain ⟨_, _, _, clash'⟩ :=
      exists_firstClash_iff.2 fun distinct => clash.not_nodup (apart.2 distinct)
    rw [failed, build_eq_conflict_iff.2 ⟨known.1 none, clash'⟩]
    exact .conflict _ _ _ _ _ _
  · obtain ⟨plan', built'⟩ := exists_build_iff.2 ⟨known.1 none, apart.1 distinct⟩
    rw [built, built']
    exact .of_built same built built'

/-- Overrides that rename a standard role and add two roles of a review. -/
def reviewOverrides : List (StampRole × FieldOverride) :=
  [(.custom "reviewedBy", { kind := some .actorId }), (.createdBy, .rename "author"),
    (.custom "archived", { kind := some .flag, nullable := some false })]

/-- The plans differ in the places of the added roles. -/
theorem build_of_perm_review : ∃ plan plan',
    (OrderedMap.ofList reviewOverrides).entries.Perm
        (OrderedMap.ofList reviewOverrides.reverse).entries ∧
      build standardRoles (.ofList reviewOverrides) = .ok plan ∧
      build standardRoles (.ofList reviewOverrides.reverse) = .ok plan' ∧
      Reordered standardRoles (.ok plan) (.ok plan') ∧ plan.fieldNames ≠ plan'.fieldNames := by
  have same : (OrderedMap.ofList reviewOverrides).entries.Perm
      (OrderedMap.ofList reviewOverrides.reverse).entries := reviewOverrides.reverse_perm.symm
  refine ⟨_, _, same, rfl, rfl, ?_, by decide⟩
  exact build_of_perm standardRoles same

end ChangeAudit.StampPlan
