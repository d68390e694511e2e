import ChangeAudit.Proofs.Stamp.Plan
import Mathlib.Data.List.Basic
import Mathlib.Data.List.Find
import Mathlib.Data.List.Induction
import Mathlib.Data.List.Nodup

/-!
# Which plan is built

A plan comes of the merged roles: the defaults in order, each with the attributes that its override
has in place of its own, then the roles that only overrides name, in the order of the overrides
(`StampPlan.mergedRoles`). The first override that cannot start a field decides first; then the
first role, in merged order, whose field an earlier kept role has; and if there is neither, the plan
holds the merged roles that are not excluded (`StampPlan.build_decides`). Overrides are merged one
after the other, and a role is named by one of them at most: what is merged so far never depends on
those to come.
-/

namespace ChangeAudit

/-- The field with the attributes that are given in place of its own. -/
def FieldSpec.under (base : FieldSpec) (given : Option FieldOverride) : FieldSpec where
  name := (given.bind FieldOverride.name).getD base.name
  kind := (given.bind FieldOverride.kind).getD base.kind
  nullable := (given.bind FieldOverride.nullable).getD base.nullable
  excluded := (given.bind FieldOverride.excluded).getD base.excluded
  sqlType := (given.bind FieldOverride.sqlType).or base.sqlType

theorem FieldSpec.under_none (base : FieldSpec) : base.under none = base := rfl

theorem FieldOverride.apply_eq_under (given : FieldOverride) (base : FieldSpec) :
    given.apply base = base.under (some given) := rfl

namespace StampPlan

/-- Overrides by role, in order. -/
abbrev Overrides := List (StampRole × FieldOverride)

/-- The role that an override adds to the defaults: one that they do not have, if the override says
what kind of field it is. It starts from a field named after the role, which may be null, is not
excluded and has no column type. -/
def added? (defaults : RoleSpecs) (o : StampRole × FieldOverride) :
    Option (StampRole × FieldSpec) :=
  if defaults.contains o.1 then none
  else o.2.kind.map fun kind =>
    let start : FieldSpec :=
      { name := o.1.name, kind := kind, nullable := true, excluded := false, sqlType := none }
    (o.1, start.under (some o.2))

/-- The defaults in order, each under its override, and after them what the overrides add. -/
def mergedRoles (defaults : RoleSpecs) (overrides : Overrides) : List (StampRole × FieldSpec) :=
  (defaults.entries.map fun e => (e.1, e.2.under (Entries.get? overrides e.1))) ++
    overrides.filterMap (added? defaults)

/-- The merged roles that are not excluded. -/
def keptRoles (defaults : RoleSpecs) (overrides : Overrides) : List (StampRole × FieldSpec) :=
  (mergedRoles defaults overrides).filter fun e => !e.2.excluded

/-- The first role of the overrides that has no default and is given no kind. -/
def unknown? (defaults : RoleSpecs) (overrides : Overrides) : Option StampRole :=
  (overrides.find? fun o => !defaults.contains o.1 && o.2.kind.isNone).map Prod.fst

/-- The names of fields, in order. -/
def names (roles : List (StampRole × FieldSpec)) : List String := roles.map fun e => e.2.name

/-- The second role is the first one whose field is taken: the roles before it have fields of their
own, and the first role is the one of them that has its field. -/
def FirstClash (roles : List (StampRole × FieldSpec)) (field first second : String) : Prop :=
  ∃ before late later owner, roles = before ++ late :: later ∧ (names before).Nodup ∧
    owner ∈ before ∧ owner.2.name = field ∧ late.2.name = field ∧ owner.1.name = first ∧
    late.1.name = second

/-- What decides about a plan. -/
structure Decides (defaults : RoleSpecs) (overrides : OrderedMap StampRole FieldOverride)
    (result : Except StampFault StampPlan) : Prop where
  unknown : ∀ name, result = .error (.unknownRole name) ↔
    ∃ role, unknown? defaults overrides.entries = some role ∧ role.name = name
  conflict : ∀ field first second, result = .error (.conflict field first second) ↔
    unknown? defaults overrides.entries = none ∧
      FirstClash (keptRoles defaults overrides.entries) field first second
  clashes : (∃ field first second,
      FirstClash (keptRoles defaults overrides.entries) field first second) ↔
    ¬ (names (keptRoles defaults overrides.entries)).Nodup
  built : ∀ plan, result = .ok plan ↔
    unknown? defaults overrides.entries = none ∧
      (names (keptRoles defaults overrides.entries)).Nodup ∧
      plan.fields.entries = keptRoles defaults overrides.entries

/-! ## Merging -/

section Merge

variable {defaults : RoleSpecs} {role : StampRole} {given : FieldOverride} {rest : Overrides}

theorem contains_insert_of_ne {other : StampRole} (differs : role ≠ other) (spec : FieldSpec) :
    (defaults.insert role spec).contains other = defaults.contains other := by
  rw [OrderedMap.contains, OrderedMap.get?_insert, if_neg differs, OrderedMap.contains]

theorem ne_of_mem_overrides (fresh : role ∉ Entries.keys rest) {o : StampRole × FieldOverride}
    (member : o ∈ rest) : role ≠ o.1 := by
  rintro rfl
  exact fresh (List.mem_map_of_mem member)

/-- What is merged for a role does not make the others known. -/
theorem unknown?_insert (fresh : role ∉ Entries.keys rest) (spec : FieldSpec) :
    unknown? (defaults.insert role spec) rest = unknown? defaults rest := by
  rw [unknown?, unknown?]
  congr 1
  apply List.find?_congr
  intro o member
  rw [contains_insert_of_ne (ne_of_mem_overrides fresh member)]

theorem filterMap_added?_insert (fresh : role ∉ Entries.keys rest) (spec : FieldSpec) :
    rest.filterMap (added? (defaults.insert role spec)) = rest.filterMap (added? defaults) := by
  apply List.filterMap_congr
  intro o member
  rw [added?, contains_insert_of_ne (ne_of_mem_overrides fresh member), added?]

/-- The override of a role leaves the others as they are. -/
theorem under_get?_of_ne {e : StampRole × FieldSpec} (other : e.1 ≠ role) :
    (e.1, e.2.under (Entries.get? rest e.1)) =
      (e.1, e.2.under (Entries.get? ((role, given) :: rest) e.1)) := by
  rw [Entries.get?, if_neg (Ne.symm other)]

/-- An override of a known role is merged at the place of its default. -/
theorem mergedRoles_insert_known (fresh : role ∉ Entries.keys rest) {base : FieldSpec}
    (known : defaults.get? role = some base) :
    mergedRoles (defaults.insert role (given.apply base)) rest =
      mergedRoles defaults ((role, given) :: rest) := by
  have skipped : added? defaults (role, given) = none := by
    rw [added?, OrderedMap.contains, known]
    rfl
  rw [mergedRoles, mergedRoles, filterMap_added?_insert fresh, List.filterMap_cons_none skipped]
  congr 1
  apply Entries.map_insert_of_get? defaults.nodup known
  · rw [Entries.get?_eq_none_of_not_mem fresh, FieldSpec.under_none, Entries.get?, if_pos rfl,
      FieldOverride.apply_eq_under]
  · intro e _ other
    exact under_get?_of_ne other

/-- An override of an unknown role is merged behind what is merged already. -/
theorem mergedRoles_insert_unknown (fresh : role ∉ Entries.keys rest)
    (unknown : defaults.get? role = none) {kind : FieldKind} (isKind : given.kind = some kind) :
    mergedRoles (defaults.insert role (given.apply (.plain role.name kind))) rest =
      mergedRoles defaults ((role, given) :: rest) := by
  have added : added? defaults (role, given) =
      some (role, given.apply (.plain role.name kind)) := by
    rw [added?, OrderedMap.contains, unknown, isKind]
    rfl
  have new : role ∉ Entries.keys defaults.entries := by
    rw [← Entries.isSome_get?_iff, ← OrderedMap.get?, unknown]
    exact Bool.false_ne_true
  have behind : (defaults.insert role (given.apply (.plain role.name kind))).entries =
      defaults.entries ++ [(role, given.apply (.plain role.name kind))] :=
    Entries.insert_of_not_mem new _
  rw [mergedRoles, mergedRoles, filterMap_added?_insert fresh, List.filterMap_cons_some added,
    behind, List.map_append, List.append_assoc, List.map_singleton,
    Entries.get?_eq_none_of_not_mem fresh, FieldSpec.under_none, List.singleton_append]
  congr 1
  apply List.map_congr_left
  intro e listed
  apply under_get?_of_ne
  rintro rfl
  exact new (List.mem_map_of_mem listed)

/-- Merging stops at the first override of an unknown role without a kind, or merges all roles. -/
theorem mergeRoles_cases (defaults : RoleSpecs) {overrides : Overrides}
    (distinct : (Entries.keys overrides).Nodup) :
    (∃ role, unknown? defaults overrides = some role ∧
      mergeRoles defaults overrides = .error (.unknownRole role.name)) ∨
    (unknown? defaults overrides = none ∧ ∃ merged, mergeRoles defaults overrides = .ok merged ∧
      merged.entries = mergedRoles defaults overrides) := by
  induction overrides generalizing defaults with
  | nil =>
    refine .inr ⟨rfl, defaults, rfl, ?_⟩
    rw [mergedRoles, List.filterMap_nil, List.append_nil]
    exact (List.map_id _).symm
  | cons o rest ih =>
    obtain ⟨role, given⟩ := o
    obtain ⟨fresh, distinct⟩ := List.nodup_cons.1 distinct
    cases known : defaults.get? role with
    | some base =>
      have passed : unknown? defaults ((role, given) :: rest) = unknown? defaults rest := by
        simp [unknown?, OrderedMap.contains, known]
      have merged := ih (defaults.insert role (given.apply base)) distinct
      rw [unknown?_insert fresh, mergedRoles_insert_known fresh known] at merged
      rw [passed, mergeRoles, resolve, known]
      exact merged
    | none =>
      cases isKind : given.kind with
      | some kind =>
        have passed : unknown? defaults ((role, given) :: rest) = unknown? defaults rest := by
          simp [unknown?, isKind]
        have merged := ih (defaults.insert role (given.apply (.plain role.name kind))) distinct
        rw [unknown?_insert fresh, mergedRoles_insert_unknown fresh known isKind] at merged
        rw [passed, mergeRoles, resolve, known, isKind]
        exact merged
      | none =>
        refine .inl ⟨role, ?_, ?_⟩
        · simp [unknown?, OrderedMap.contains, known, isKind]
        · rw [mergeRoles, resolve, known, isKind]

end Merge

/-! ## Keeping -/

section Keep

variable {roles : List (StampRole × FieldSpec)} {field first second : String}

theorem nodup_names_append (distinct : (names roles).Nodup) {e : StampRole × FieldSpec}
    (free : e.2.name ∉ names roles) : (names (roles ++ [e])).Nodup := by
  rw [names, List.map_append, List.map_singleton, ← List.concat_eq_append]
  exact distinct.concat free

theorem not_nodup_of_taken {before later : List (StampRole × FieldSpec)}
    {late owner : StampRole × FieldSpec} (member : owner ∈ before)
    (taken : owner.2.name = late.2.name) : ¬ (names (before ++ late :: later)).Nodup := by
  intro distinct
  rw [names, List.map_append, List.nodup_append] at distinct
  exact distinct.2.2 _ (List.mem_map_of_mem member) _ List.mem_cons_self taken

theorem FirstClash.not_nodup (clash : FirstClash roles field first second) :
    ¬ (names roles).Nodup := by
  obtain ⟨before, late, later, owner, rfl, -, member, owns, taken, -, -⟩ := clash
  exact not_nodup_of_taken member (owns.trans taken.symm)

/-- There is one first role whose field is taken, and one role that has its field. -/
theorem FirstClash.unique {field' first' second' : String}
    (clash : FirstClash roles field first second)
    (clash' : FirstClash roles field' first' second') :
    field = field' ∧ first = first' ∧ second = second' := by
  obtain ⟨before, late, later, owner, rfl, distinct, member, owns, rfl, rfl, rfl⟩ := clash
  obtain ⟨before', late', later', owner', same, distinct', member', owns', rfl, rfl, rfl⟩ := clash'
  -- the longer of the two beginnings would hold the other's clash
  obtain ⟨rfl, rfl⟩ : before = before' ∧ late = late' := by
    rcases List.append_eq_append_iff.1 same with ⟨more, rfl, rest⟩ | ⟨more, rfl, rest⟩
    · cases more with
      | nil => exact ⟨(List.append_nil _).symm, (List.cons.inj rest).1⟩
      | cons e more =>
        obtain ⟨rfl, -⟩ := List.cons.inj rest
        exact absurd distinct' (not_nodup_of_taken member owns)
    · cases more with
      | nil => exact ⟨List.append_nil _, (List.cons.inj rest).1.symm⟩
      | cons e more =>
        obtain ⟨rfl, -⟩ := List.cons.inj rest
        exact absurd distinct (not_nodup_of_taken member' owns')
  obtain rfl := List.inj_on_of_nodup_map distinct member member' (owns.trans owns'.symm)
  exact ⟨rfl, rfl, rfl⟩

/-- A field is taken exactly if the roles do not all have names of their own for their fields. -/
theorem exists_firstClash_iff :
    (∃ field first second, FirstClash roles field first second) ↔ ¬ (names roles).Nodup := by
  constructor
  · rintro ⟨field, first, second, clash⟩
    exact clash.not_nodup
  · intro taken
    induction roles using List.reverseRecOn with
    | nil => exact absurd List.nodup_nil taken
    | append_singleton roles late ih =>
      by_cases distinct : (names roles).Nodup
      · have known : late.2.name ∈ names roles := by
          by_contra free
          exact taken (nodup_names_append distinct free)
        obtain ⟨owner, member, owns⟩ := List.mem_map.1 known
        exact ⟨_, _, _, roles, late, [], owner, rfl, distinct, member, owns, rfl, rfl, rfl⟩
      · obtain ⟨_, _, _, before, found, later, owner, rfl, rest⟩ := ih distinct
        exact ⟨_, _, _, before, found, later ++ [late], owner, by simp, rest⟩

/-- Keeping stops at the first role whose field is taken, or keeps all roles that are not
excluded. -/
theorem keepFields_cases (kept : RoleSpecs)
    (distinct : (Entries.keys (kept.entries ++ roles)).Nodup)
    (separate : (names kept.entries).Nodup) :
    (∃ field first second,
      FirstClash (kept.entries ++ roles.filter fun e => !e.2.excluded) field first second ∧
        keepFields kept roles = .error (.conflict field first second)) ∨
    ((names (kept.entries ++ roles.filter fun e => !e.2.excluded)).Nodup ∧
      ∃ fields, keepFields kept roles = .ok fields ∧
        fields.entries = kept.entries ++ roles.filter fun e => !e.2.excluded) := by
  induction roles generalizing kept with
  | nil =>
    rw [List.filter_nil, List.append_nil]
    exact .inr ⟨separate, kept, rfl, rfl⟩
  | cons e roles ih =>
    obtain ⟨role, spec⟩ := e
    cases excluded : spec.excluded with
    | true =>
      have fewer : (Entries.keys (kept.entries ++ roles)).Nodup :=
        distinct.sublist (((List.sublist_cons_self _ _).append_left _).map _)
      rw [List.filter_cons_of_neg (by simp [excluded]), keepFields, if_pos excluded]
      exact ih kept fewer separate
    | false =>
      rw [List.filter_cons_of_pos (by simp [excluded]), keepFields, if_neg (by simp [excluded])]
      cases free : owner? kept.entries spec.name with
      | some first =>
        obtain ⟨owner, found, rfl⟩ := Option.map_eq_some_iff.1 free
        have owns : owner.2.name = spec.name := by simpa using List.find?_some found
        exact .inl ⟨_, _, _, ⟨kept.entries, (role, spec), _, owner, rfl, separate,
          List.mem_of_find?_eq_some found, owns, rfl, rfl, rfl⟩, rfl⟩
      | none =>
        have fresh : role ∉ Entries.keys kept.entries := Entries.not_mem_of_nodup_keys distinct
        have joined : (kept.insert role spec).entries = kept.entries ++ [(role, spec)] :=
          Entries.insert_of_not_mem fresh spec
        have apart : (names (kept.entries ++ [(role, spec)])).Nodup := by
          apply nodup_names_append separate
          intro taken
          obtain ⟨owner, listed, owns⟩ := List.mem_map.1 taken
          exact owner?_eq_none free listed owns
        rw [List.append_cons] at distinct ⊢
        rw [← joined] at distinct apart ⊢
        exact ih (kept.insert role spec) distinct apart

end Keep

/-! ## What decides -/

/-- A plan fails for an unknown role, else for a clash, or else is built of the merged roles. -/
theorem build_cases (defaults : RoleSpecs) (overrides : OrderedMap StampRole FieldOverride) :
    (∃ role, unknown? defaults overrides.entries = some role ∧
      build defaults overrides = .error (.unknownRole role.name)) ∨
    (unknown? defaults overrides.entries = none ∧ ∃ field first second,
      FirstClash (keptRoles defaults overrides.entries) field first second ∧
        build defaults overrides = .error (.conflict field first second)) ∨
    (unknown? defaults overrides.entries = none ∧
      (names (keptRoles defaults overrides.entries)).Nodup ∧ ∃ plan,
        build defaults overrides = .ok plan ∧
          plan.fields.entries = keptRoles defaults overrides.entries) := by
  rcases mergeRoles_cases defaults overrides.nodup with
    ⟨role, unknown, failed⟩ | ⟨known, merged, done, same⟩
  · exact .inl ⟨role, unknown, by rw [build, failed]⟩
  · have kept := @keepFields_cases merged.entries .empty merged.nodup List.nodup_nil
    have roles : OrderedMap.empty.entries ++ merged.entries.filter (fun e => !e.2.excluded) =
        keptRoles defaults overrides.entries := by
      rw [keptRoles, ← same]
      rfl
    rw [roles] at kept
    rcases kept with ⟨field, first, second, clash, failed⟩ | ⟨separate, fields, built, entries⟩
    · exact .inr (.inl ⟨known, field, first, second, clash, by simp only [build, done, failed]⟩)
    · exact .inr (.inr ⟨known, separate, ⟨fields⟩, by simp only [build, done, built], entries⟩)

theorem build_eq_unknownRole_iff {defaults : RoleSpecs}
    {overrides : OrderedMap StampRole FieldOverride} {name : String} :
    build defaults overrides = .error (.unknownRole name) ↔
      ∃ role, unknown? defaults overrides.entries = some role ∧ role.name = name := by
  rcases build_cases defaults overrides with
    ⟨role, unknown, result⟩ | ⟨known, _, _, _, -, result⟩ | ⟨known, -, _, result, -⟩
  · simp [unknown, result]
  · simp [known, result]
  · simp [known, result]

theorem build_eq_conflict_iff {defaults : RoleSpecs}
    {overrides : OrderedMap StampRole FieldOverride} {field first second : String} :
    build defaults overrides = .error (.conflict field first second) ↔
      unknown? defaults overrides.entries = none ∧
        FirstClash (keptRoles defaults overrides.entries) field first second := by
  rcases build_cases defaults overrides with
    ⟨role, unknown, result⟩ | ⟨known, _, _, _, clash, result⟩ | ⟨known, separate, _, result, -⟩
  · simp [unknown, result]
  · rw [result, known]
    constructor
    · intro same
      cases same
      exact ⟨rfl, clash⟩
    · rintro ⟨-, other⟩
      obtain ⟨rfl, rfl, rfl⟩ := clash.unique other
      rfl
  · rw [result]
    constructor
    · intro same
      nomatch same
    · rintro ⟨-, clash⟩
      exact absurd separate clash.not_nodup

theorem build_eq_ok_iff {defaults : RoleSpecs}
    {overrides : OrderedMap StampRole FieldOverride} {plan : StampPlan} :
    build defaults overrides = .ok plan ↔
      unknown? defaults overrides.entries = none ∧
        (names (keptRoles defaults overrides.entries)).Nodup ∧
        plan.fields.entries = keptRoles defaults overrides.entries := by
  rcases build_cases defaults overrides with
    ⟨role, unknown, result⟩ | ⟨known, _, _, _, clash, result⟩ |
      ⟨known, separate, made, result, entries⟩
  · simp [unknown, result]
  · simp [clash.not_nodup, result]
  · rw [result]
    constructor
    · intro same
      cases same
      exact ⟨known, separate, entries⟩
    · rintro ⟨-, -, others⟩
      obtain ⟨fields⟩ := made
      obtain ⟨fields'⟩ := plan
      obtain rfl : fields = fields' := OrderedMap.ext (entries.trans others.symm)
      rfl

/-- The fields of a plan that was built have names of their own. -/
theorem nodup_fieldNames {defaults : RoleSpecs} {overrides : OrderedMap StampRole FieldOverride}
    {plan : StampPlan} (built : build defaults overrides = .ok plan) : plan.fieldNames.Nodup := by
  obtain ⟨-, distinct, entries⟩ := build_eq_ok_iff.1 built
  rw [fieldNames, specs, OrderedMap.values, List.map_map, entries]
  exact distinct

/-- **What decides about a plan**: it fails with the first override, in order, of a role that has no
default and is given no kind, whatever else is wrong; failing that, with the first role, in merged
order, whose field an earlier role has, neither being excluded; and otherwise it consists of the
merged roles that are not excluded, in order, each with a field of its own. -/
theorem build_decides (defaults : RoleSpecs) (overrides : OrderedMap StampRole FieldOverride) :
    Decides defaults overrides (build defaults overrides) where
  unknown _ := build_eq_unknownRole_iff
  conflict _ _ _ := build_eq_conflict_iff
  clashes := exists_firstClash_iff
  built _ := build_eq_ok_iff

/-- A role that nobody knows counts before a name that is taken. -/
example : build standardRoles (.ofList [(.createdBy, .rename "lastUpdatedBy"),
    (.custom "reviewedBy", .rename "reviewer")]) = .error (.unknownRole "reviewedBy") :=
  rfl

end StampPlan

end ChangeAudit
