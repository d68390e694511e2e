import ChangeAudit.Proofs.Json.Values
import ChangeAudit.Proofs.Policy.Spelling

/-!
# Policies are exported and loaded again

The document of a policy is settled and reads as that policy, setting by setting and override by
override (`Policy.decode?_toJson`), whatever the strings in it are. It always has the keys of the
built-in defaults, and none of those is an object, so nothing of them is left below it: a fresh store
that loads the text of a policy makes that policy (`PolicyStore.reload_text`).
-/

namespace ChangeAudit

open Policy (Setting)

/-! ## Overrides -/

theorem FieldKind.decode?_name (k : FieldKind) : decode? (Json.string k.name).toTerm = some k := by
  cases k <;> decide

namespace FieldOverride

theorem decode?_toJson (o : FieldOverride) : decode? o.toJson.toTerm = some o := by
  have kind : Term.optional? FieldKind.decode?
      ((o.kind.map fun k => Json.string k.name).map Json.toTerm) = some o.kind :=
    Term.optional?_map fun k _ => congrArg (Option.map some) k.decode?_name
  have truth (b : Option Bool) :
      Term.optional? Term.bool? ((b.map Json.bool).map Json.toTerm) = some b :=
    Term.optional?_map fun _ _ => rfl
  rw [decode?, toJson, Term.fields?_struct rfl]
  simp only [List.map_cons, List.map_nil, Term.optional?_string, kind, truth, Option.bind_eq_bind,
    Option.bind_some]

/-- The fields of the document of an override have distinct names, and no objects as values. -/
theorem keysDistinct_toJson (o : FieldOverride) : o.toJson.KeysDistinct := by
  apply Json.keysDistinct_struct
  · simp [Entries.keys]
  · simp only [List.forall_mem_cons, Option.map_eq_some_iff]
    refine ⟨?_, ?_, ?_, ?_, ?_, by simp⟩
    · rintro _ ⟨s, -, rfl⟩
      exact .string s
    · rintro _ ⟨k, -, rfl⟩
      exact .string k.name
    · rintro _ ⟨b, -, rfl⟩
      exact .bool b
    · rintro _ ⟨b, -, rfl⟩
      exact .bool b
    · rintro _ ⟨s, -, rfl⟩
      exact .string s

theorem legible_toJson (o : FieldOverride) (room : Nat) : o.toJson.legible (room + 1) = true := by
  have kind (k : Option FieldKind) :
      (k.map fun k => Json.string k.name).all (Json.legible · room) = true := by
    cases k <;> rfl
  have truth (b : Option Bool) : (b.map Json.bool).all (Json.legible · room) = true := by
    cases b <;> rfl
  apply Json.legible_struct
  simp only [List.all_cons, List.all_nil, Json.legible_optional_string, kind, truth, Bool.and_true]

end FieldOverride

/-! ## Policies -/

namespace Policy

/-- The greatest length of a recorded value is a number of 64 bits. -/
def Fits (p : Policy) : Prop := ∀ n, p.truncateLength = some n → n < 2 ^ 64

/-- The fields of the document of a policy. -/
def fields (p : Policy) : List (String × Option Json) :=
  [("verbose", some (.bool p.verbose)), ("transactional", some (.bool p.transactional)),
    ("actorKey", p.actorKey.map .string), ("sessionAttribute", p.sessionAttribute.map .string),
    ("ignoredProperties", some (.strings p.ignored.names)),
    ("mask", some (.strings p.masked.names)), ("truncateLength", p.truncateLength.map .nat),
    ("stamp", some (.ofMap FieldOverride.toJson p.stamp)),
    ("auditDomainClassName", p.domainClassName.map .string)]

theorem nodup_keys_fields (p : Policy) : (Entries.keys p.fields).Nodup :=
  (by decide : keys.Nodup)

theorem get?_toJson (p : Policy) (key : String) :
    p.toJson.get? key = (Entries.get? p.fields key).join :=
  Json.get?_struct p.nodup_keys_fields key

theorem keysDistinct_toJson (p : Policy) : p.toJson.KeysDistinct := by
  have text (s : Option String) : ∀ v, s.map Json.string = some v → v.KeysDistinct := by
    intro v given
    obtain ⟨s, -, rfl⟩ := Option.map_eq_some_iff.1 given
    exact .string s
  have number (n : Option Nat) : ∀ v, n.map Json.nat = some v → v.KeysDistinct := by
    intro v given
    obtain ⟨n, -, rfl⟩ := Option.map_eq_some_iff.1 given
    exact .number (.int n)
  apply Json.keysDistinct_struct p.nodup_keys_fields
  simp only [fields, List.forall_mem_cons, Option.some.injEq, forall_eq']
  exact ⟨.bool _, .bool _, text _, text _, Json.keysDistinct_strings _,
    Json.keysDistinct_strings _, number _,
    Json.keysDistinct_ofMap FieldOverride.keysDistinct_toJson _, text _, by simp⟩

theorem settled_toJson (p : Policy) : p.toJson.Settled :=
  ⟨⟨_, rfl⟩, p.keysDistinct_toJson, p.get?_toJson "ignore"⟩

theorem legible_toJson {p : Policy} (fits : p.Fits) (room : Nat) :
    p.toJson.legible (room + 3) = true := by
  have cut : (p.truncateLength.map Json.nat).all (Json.legible · (room + 2)) = true := by
    cases given : p.truncateLength with
    | none => rfl
    | some n => rw [Option.map_some, Option.all_some, Json.legible_nat (fits n given)]
  have stamp : (Json.ofMap FieldOverride.toJson p.stamp).legible (room + 2) = true :=
    Json.legible_ofMap fun e _ => e.2.legible_toJson room
  apply Json.legible_struct
  simp only [List.all_cons, List.all_nil, Option.all_some, Json.legible_optional_string,
    Json.legible_strings, cut, stamp, Json.legible, Bool.and_true]

theorem names?_strings (s : NameSet) : names? (Json.strings s.names).toTerm = some s := by
  rw [names?, Json.strings, Term.list?_map fun _ => rfl, Option.map_some, NameSet.ofList_names]

theorem Setting.of?_toJson {p : Policy} (fits : p.Fits) (a : Setting) :
    a.of? p.toJson = some (p.get a) := by
  rw [Setting.of?, get?_toJson]
  cases a with
  | verbose => rfl
  | transactional => rfl
  | actorKey => exact Term.optional?_string p.actorKey
  | sessionAttribute => exact Term.optional?_string p.sessionAttribute
  | ignored => exact names?_strings p.ignored
  | masked => exact names?_strings p.masked
  | truncateLength =>
    have reads : ∀ n, p.truncateLength = some n →
        Term.nullable? Term.natural? (Json.nat n).toTerm = some (some n) := by
      intro n given
      have bound := fits n given
      have whole : 0 ≤ (n : Int) ∧ (n : Int) < 2 ^ 64 := by omega
      rw [Json.nat, Json.toTerm, Term.nullable?, Term.natural?, if_pos whole]
      · rfl
      · exact fun none => Term.noConfusion none
    exact Term.optional?_map reads
  | domainClassName => exact Term.optional?_string p.domainClassName

theorem overrides?_toJson (p : Policy) : overrides? p.toJson = some p.stamp := by
  rw [overrides?, get?_toJson]
  exact Term.map?_ofMap fun e _ => e.2.decode?_toJson

/-- The document of a policy reads as that policy. -/
theorem decode?_toJson {p : Policy} (fits : p.Fits) : decode? p.toJson.toTerm = some p :=
  (decode?_eq_some_iff p.settled_toJson).2 ⟨Setting.of?_toJson fits, p.overrides?_toJson⟩

end Policy

namespace PolicySource

/-- A settled document that has no section is taken as it is. -/
theorem normalize_settled_eq {document : Json} (settled : document.Settled)
    (bare : document.get? sectionKey = none) : normalize document = .ok document := by
  obtain ⟨⟨members, rfl⟩, -, spelling⟩ := settled
  rw [Json.get?] at bare spelling
  simp only [normalize, unwrap, bare, Option.getD_none, settleSpelling, spelling]

theorem read_text {p : Policy} (fits : p.Fits) (files : FileArea) :
    read files (.text p.toJson.text) = .ok p.toJson := by
  have parsed := Json.parse?_text (Policy.legible_toJson fits 124) p.keysDistinct_toJson
  simp only [read, contents, parsed]
  exact normalize_settled_eq p.settled_toJson (p.get?_toJson sectionKey)

end PolicySource

namespace PolicyStore

/-- Over the document of a policy the built-in defaults show nowhere. -/
theorem decode?_standard_layer {p : Policy} (fits : p.Fits) :
    Policy.decode? (standard.defaults.layer p.toJson).toTerm = some p := by
  rw [← Policy.decode?_toJson fits]
  apply Policy.decode?_congr (standard_settled.1.layer p.settled_toJson) p.settled_toJson
  intro key listed
  rw [standard, get?_layer_standard p.settled_toJson.isObject, p.get?_toJson]
  -- what the defaults have, every policy has
  revert key
  simp only [Policy.keys, List.forall_mem_cons]
  exact ⟨rfl, rfl, Option.or_none, Option.or_none, rfl, rfl, Option.or_none, rfl, Option.or_none,
    by simp⟩

/-- A fresh store makes a policy of its text, if the policy has a stamp plan. -/
theorem reload_text_eq {p : Policy} (fits : p.Fits) (files : FileArea) :
    standard.reload files (.text p.toJson.text) =
      match p.stampPlan with
      | .ok _ => ({ standard with primary := p.toJson, live := ⟨p, .nobody⟩ }, .ok ())
      | .error e => (standard, .error (.stamps e)) := by
  have read := PolicySource.read_text fits files
  have decoded := decode?_standard_layer fits
  simp only [reload, read, materialize, policyOf, decoded]
  cases p.stampPlan <;> rfl

/-- What becomes of the text of a policy. -/
structure Exports (p : Policy) (files : FileArea) : Prop where
  decodes : (Term.parse? p.toJson.text).bind Policy.decode? = some p
  accepted : (standard.reload files (.text p.toJson.text)).2 = .ok () ↔
    ∃ plan, p.stampPlan = .ok plan
  live : (standard.reload files (.text p.toJson.text)).2 = .ok () →
    (standard.reload files (.text p.toJson.text)).1.live.policy = p
  refused : ∀ e, p.stampPlan = .error e →
    standard.reload files (.text p.toJson.text) = (standard, .error (.stamps e))

/-- **Every policy can be exported and loaded again**: its text reads as that policy, and a fresh
store accepts the text exactly if the overrides make a stamp plan, and then holds that policy. If
they make none, the store says why and stays as it was. -/
theorem reload_text {p : Policy} (fits : p.Fits) (files : FileArea) : Exports p files := by
  have whole := reload_text_eq fits files
  constructor
  · rw [Json.parse?_text_toTerm (Policy.legible_toJson fits 124), Option.bind_some,
      Policy.decode?_toJson fits]
  · rw [whole]
    cases p.stampPlan <;> simp
  · rw [whole]
    cases p.stampPlan with
    | ok plan => exact fun _ => rfl
    | error e => exact fun accepted => nomatch accepted
  · intro e failed
    rw [whole, failed]

/-- A policy with a quote in a masked name, a cut, two overrides of which one excludes its role, and
a key in the session. -/
theorem reload_text_of_overrides : ∃ p : Policy, p.Fits ∧ Exports p .empty ∧
    (standard.reload .empty (.text p.toJson.text)).1.live.policy = p := by
  let p : Policy := {
    verbose := true
    transactional := false
    actorKey := some "user.id"
    sessionAttribute := none
    ignored := .empty
    masked := .ofList ["pin", "a\"b"]
    truncateLength := some 12
    stamp := .ofList [("lastUpdatedBy", .exclude), ("createdBy", .rename "author")]
    domainClassName := none }
  have fits : p.Fits := by
    rintro n ⟨⟩
    decide
  have exports := reload_text fits .empty
  exact ⟨p, fits, exports, exports.live (exports.accepted.2 ⟨_, rfl⟩)⟩

end PolicyStore

end ChangeAudit
