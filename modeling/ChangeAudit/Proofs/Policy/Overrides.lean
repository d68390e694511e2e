import ChangeAudit.Policy.Store
import ChangeAudit.Proofs.Policy.History
import ChangeAudit.Proofs.Policy.Settings
import ChangeAudit.Proofs.Stamp.Override

/-!
# The overrides of a document

A settled document reads as a policy if its plain fields do, none of which is an object, and its
stamp section does (`Policy.decode?_settled`). The stamp section is looked up role by role and
spelling by spelling, and so is a layering of two of them (`Json.override?_layer`,
`Json.spells_layer`). The built-in defaults have no stamp section and no object at all, so what a
fresh store accepts can be read by itself.
-/

namespace ChangeAudit

open FieldOverride (Attribute)

namespace Term

variable {α : Type} {read : Term → Option α} {value : Option Json}

theorem exists_defaulted?_iff {default : α} :
    (∃ x, defaulted? read default (value.map Json.toTerm) = some x) ↔
      ∀ v, value = some v → (read v.toTerm).isSome = true := by
  cases value <;> simp [defaulted?, Option.isSome_iff_exists]

theorem exists_optional?_iff :
    (∃ x, optional? read (value.map Json.toTerm) = some x) ↔
      ∀ v, value = some v → (nullable? read v.toTerm).isSome = true := by
  cases value <;> simp [optional?, Option.isSome_iff_exists]

end Term

namespace Policy

/-- The fields of a policy document whose values are no objects, with the values they take. -/
def plainFields : List (String × (Term → Bool)) :=
  [("verbose", fun t => (Term.bool? t).isSome), ("transactional", fun t => (Term.bool? t).isSome),
    ("actorKey", fun t => (Term.nullable? Term.string? t).isSome),
    ("sessionAttribute", fun t => (Term.nullable? Term.string? t).isSome),
    ("ignoredProperties", fun t => (names? t).isSome), ("mask", fun t => (names? t).isSome),
    ("truncateLength", fun t => (Term.nullable? Term.natural? t).isSome),
    ("auditDomainClassName", fun t => (Term.nullable? Term.string? t).isSome)]

/-- The plain fields of a document have values that they take. -/
def Plain (document : Json) : Prop :=
  ∀ f ∈ plainFields, ∀ value, document.get? f.1 = some value → f.2 value.toTerm = true

/-- The plain fields are the settings. -/
theorem plain_iff {document : Json} :
    Plain document ↔ ∀ a : Setting, ∃ x, a.of? document = some x := by
  simp only [Setting.forall_iff, Setting.of?, Setting.read, Setting.key, Setting.Value, Plain,
    plainFields, List.forall_mem_cons, Term.exists_defaulted?_iff, Term.exists_optional?_iff]
  constructor
  · rintro ⟨verbose, transactional, key, session, ignored, masked, cut, name, -⟩
    exact ⟨verbose, transactional, key, session, ignored, masked, cut, name⟩
  · rintro ⟨verbose, transactional, key, session, ignored, masked, cut, name⟩
    exact ⟨verbose, transactional, key, session, ignored, masked, cut, name, by simp⟩

/-- A settled document reads as a policy if its plain fields and its overrides do. -/
theorem decode?_settled {document : Json} (settled : document.Settled)
    (overrides : OrderedMap String FieldOverride) :
    (decode? document.toTerm).map Policy.stamp = some overrides ↔
      Plain document ∧ overrides? document = some overrides := by
  rw [plain_iff, Option.map_eq_some_iff]
  constructor
  · rintro ⟨p, read, rfl⟩
    obtain ⟨settings, stamp⟩ := (decode?_eq_some_iff settled).1 read
    exact ⟨fun a => ⟨p.get a, settings a⟩, stamp⟩
  · rintro ⟨settings, stamp⟩
    choose value reads using settings
    refine ⟨ofSettings value overrides, (decode?_eq_some_iff settled).2 ⟨?_, stamp⟩, rfl⟩
    intro a
    rw [get_ofSettings, reads]

/-- No plain field takes an object. -/
theorem plainFields_object {f : String × (Term → Bool)} (listed : f ∈ plainFields)
    {value : Json} (takes : f.2 value.toTerm = true) : ¬ value.IsObject := by
  rintro ⟨members, rfl⟩
  revert f
  simp [plainFields, Json.toTerm, Term.bool?, Term.nullable?, Term.string?, Term.natural?, names?,
    Term.list?]

theorem Plain.layer {lower upper : Json} (settled' : upper.Settled) (plain : Plain lower)
    (plain' : Plain upper) : Plain (lower.layer upper) := by
  intro f listed value found
  rw [Json.get?_layer lower settled'.isObject, Option.merge_eq_some_iff] at found
  rcases found with ⟨below, -⟩ | ⟨-, above⟩ | ⟨l, u, -, above, rfl⟩
  · exact plain f listed value below
  · exact plain' f listed value above
  · have takes := plain' f listed u above
    rwa [Json.layer_eq_upper l (plainFields_object listed takes)]

end Policy

namespace PolicyStore

/-- Over the built-in defaults, none of which is an object, every key has the value of the upper
document if that has the key. -/
theorem get?_layer_standard {document : Json} (object : document.IsObject) (key : String) :
    (standardDocument.layer document).get? key =
      (document.get? key).or (standardDocument.get? key) := by
  rw [Json.get?_layer standardDocument object]
  cases below : standardDocument.get? key with
  | none =>
    rw [Option.merge_none_left, Option.or_none]
  | some l =>
    have bare : ¬ l.IsObject := by
      have member := Entries.mem_of_get? below
      rintro ⟨members, rfl⟩
      simp [Json.strings] at member
    cases document.get? key with
    | none => rfl
    | some u => rw [Option.merge_some_some, Json.layer_eq_upper_of_lower bare, Option.some_or]

/-- The built-in defaults hide nothing of a document, so it is judged by what it says itself. -/
theorem plain_of_standard {document : Json} (settled : document.Settled)
    (plain : Policy.Plain (standardDocument.layer document)) : Policy.Plain document := by
  intro f listed value found
  apply plain f listed
  rw [get?_layer_standard settled.isObject, found, Option.some_or]

theorem overrides?_standard {document : Json} (settled : document.Settled) :
    Policy.overrides? (standardDocument.layer document) = Policy.overrides? document := by
  have none : standardDocument.get? "stamp" = none := rfl
  rw [Policy.overrides?, get?_layer_standard settled.isObject, none, Option.or_none]
  rfl

end PolicyStore

/-! ## The override of a role -/

namespace Json

/-- The override that a document has for a role. -/
def override? (document : Json) (role : String) : Option Json := document.at? ["stamp", role]

/-- A document has an attribute of a role's override under this spelling. -/
def spells (document : Json) (role spelling : String) : Bool :=
  (document.at? ["stamp", role, spelling]).isSome

/-- A document has an attribute of a role's override, however it is spelled. -/
def gives (document : Json) (role : String) (a : Attribute) : Bool :=
  a.spellings.any (document.spells role)

/-- Every override of a document is an object, not an array of attributes. -/
def ObjectForm (document : Json) : Prop :=
  ∀ role o, document.override? role = some o → o.IsObject

/-- The kind of a role is an object of several members, so none at all. -/
def KindCrowded (document : Json) (role : String) : Prop :=
  ∃ value, document.at? ["stamp", role, "type"] = some value ∧ Attribute.Crowded value

theorem override?_eq (document : Json) (role : String) :
    document.override? role = (document.get? "stamp").bind (·.get? role) := by
  rw [override?, at?]
  cases document.get? "stamp" with
  | none => rfl
  | some stamp =>
    simp only [at?, Option.bind_some]
    cases stamp.get? role <;> rfl

theorem at?_override (document : Json) (role key : String) :
    document.at? ["stamp", role, key] = (document.override? role).bind (·.get? key) := by
  rw [override?_eq, at?]
  cases document.get? "stamp" with
  | none => rfl
  | some stamp =>
    simp only [at?, Option.bind_some]
    cases stamp.get? role with
    | none => rfl
    | some o =>
      simp only [Option.bind_some]
      cases o.get? key <;> rfl

theorem spells_of_override {document : Json} {role : String} {members : List (String × Json)}
    (found : document.override? role = some (.object members)) (spelling : String) :
    document.spells role spelling = (Entries.get? members spelling).isSome := by
  rw [spells, at?_override, found]
  rfl

theorem spells_of_no_override {document : Json} {role : String}
    (absent : document.override? role = none) (spelling : String) :
    document.spells role spelling = false := by
  rw [spells, at?_override, absent]
  rfl

theorem gives_of_override {document : Json} {role : String} {members : List (String × Json)}
    (found : document.override? role = some (.object members)) (a : Attribute) :
    document.gives role a = a.givenIn members := by
  rw [gives, funext (spells_of_override found), Attribute.givenIn]

/-- Under a stamp section that is an object, stamp sections are layered role by role. -/
theorem override?_layer (lower : Json) {upper : Json} (object : upper.IsObject)
    (stamp : ∀ v, upper.get? "stamp" = some v → v.IsObject) (role : String) :
    (lower.layer upper).override? role =
      (lower.override? role).merge layer (upper.override? role) := by
  rw [override?_eq, override?_eq, override?_eq, get?_layer lower object]
  cases lower.get? "stamp" with
  | none => simp
  | some l =>
    cases above : upper.get? "stamp" with
    | none => simp
    | some u =>
      simp only [Option.merge_some_some, Option.bind_some]
      exact get?_layer l (stamp u above) role

/-- Under overrides that are objects, overrides are layered spelling by spelling. -/
theorem spells_layer (lower : Json) {upper : Json} (object : upper.IsObject)
    (stamp : ∀ v, upper.get? "stamp" = some v → v.IsObject) (form : upper.ObjectForm)
    (role s : String) :
    (lower.layer upper).spells role s = (lower.spells role s || upper.spells role s) := by
  rw [spells, spells, spells, at?_override, at?_override, at?_override,
    override?_layer lower object stamp]
  cases lower.override? role with
  | none => simp
  | some l =>
    cases above : upper.override? role with
    | none => simp
    | some u =>
      rw [Option.merge_some_some, Option.bind_some, Option.bind_some, Option.bind_some,
        get?_layer l (form role u above), Option.isSome_merge]

theorem KeysDistinct.override? {document o : Json} (distinct : document.KeysDistinct)
    {role : String} (found : document.override? role = some o) : o.KeysDistinct := by
  rw [override?_eq] at found
  obtain ⟨stamp, there, found⟩ := Option.bind_eq_some_iff.1 found
  exact (distinct.get? there).get? found

end Json

namespace Policy

/-- The overrides that are read are those of the document, role by role. -/
theorem get?_of_overrides? {document : Json} (distinct : document.KeysDistinct)
    {overrides : OrderedMap String FieldOverride} (read : overrides? document = some overrides)
    (role : String) :
    overrides.get? role =
      (document.override? role).bind fun o => FieldOverride.decode? o.toTerm := by
  rw [Json.override?_eq]
  rw [overrides?] at read
  cases found : document.get? "stamp" with
  | none =>
    rw [found] at read
    cases read
    rfl
  | some stamp =>
    rw [found, Option.map_some, Term.defaulted?] at read
    cases stamp with
    | object members =>
      cases distinct.get? found with | object distinct each => ?_
      rw [Term.get?_map?_object distinct read]
      rfl
    | _ => cases read

/-- A stamp section is an object. -/
theorem stamp_isObject {document : Json} {overrides : OrderedMap String FieldOverride}
    (read : overrides? document = some overrides) :
    ∀ v, document.get? "stamp" = some v → v.IsObject := by
  intro v found
  rw [overrides?, found, Option.map_some, Term.defaulted?] at read
  cases v with
  | object members => exact ⟨members, rfl⟩
  | _ => cases read

/-- The overrides of a document are read if each of them is. -/
theorem isSome_overrides?_iff {document : Json} (distinct : document.KeysDistinct)
    (stamp : ∀ v, document.get? "stamp" = some v → v.IsObject) :
    (overrides? document).isSome = true ↔ ∀ role o, document.override? role = some o →
      (FieldOverride.decode? o.toTerm).isSome = true := by
  simp only [Json.override?_eq, overrides?]
  cases found : document.get? "stamp" with
  | none => simp [Term.defaulted?]
  | some v =>
    obtain ⟨members, rfl⟩ := stamp v found
    cases distinct.get? found with | object distinct each => ?_
    rw [Option.map_some, Term.defaulted?, Term.isSome_map?_object]
    simp only [Option.bind_some, Json.get?]
    constructor
    · intro all role o there
      exact all (role, o) (Entries.mem_of_get? there)
    · rintro all ⟨role, o⟩ member
      exact all role o (Entries.get?_of_mem distinct member)

/-- The overrides of a policy are those of its document, role by role. -/
theorem get?_stamp {document : Json} (settled : document.Settled) {p : Policy}
    (read : decode? document.toTerm = some p) (role : String) :
    p.stamp.get? role = (document.override? role).bind fun o => FieldOverride.decode? o.toTerm :=
  get?_of_overrides? settled.keysDistinct ((decode?_eq_some_iff settled).1 read).2 role

/-- An override in the document of a policy is one of the policy. -/
theorem exists_override {document : Json} (settled : document.Settled) {p : Policy}
    (read : decode? document.toTerm = some p) {role : String} {o : Json}
    (found : document.override? role = some o) :
    ∃ given, p.stamp.get? role = some given ∧ FieldOverride.decode? o.toTerm = some given := by
  have overrides := ((decode?_eq_some_iff settled).1 read).2
  have all := (isSome_overrides?_iff settled.keysDistinct (stamp_isObject overrides)).1
    (by rw [overrides]; rfl)
  obtain ⟨given, decoded⟩ := Option.isSome_iff_exists.1 (all role o found)
  refine ⟨given, ?_, decoded⟩
  rw [get?_stamp settled read, found]
  exact decoded

end Policy

end ChangeAudit
