import ChangeAudit.Policy
import ChangeAudit.Proofs.Json.Decode
import ChangeAudit.Proofs.Policy.Layer

/-!
# Policies setting by setting

Apart from the stamp overrides a policy has eight settings, each with a key of its own and a type of
its own (`Policy.Setting`). A settled document reads as a policy if each setting reads and the
overrides do (`Policy.decode?_eq_some_iff`), so two documents that agree on the keys read the same.
-/

namespace ChangeAudit

namespace Term

theorem given?_single {members : List (String × Json)} (distinct : (Entries.keys members).Nodup)
    (s : String) :
    given? (Json.toMembers members) [s] = some ((Entries.get? members s).map Json.toTerm) := by
  rw [given?_object distinct (List.nodup_singleton s), spelled]
  cases found : Entries.get? members s <;> simp [found]

theorem given?_pair {members : List (String × Json)} (distinct : (Entries.keys members).Nodup)
    {s t : String} (differ : s ≠ t) (absent : Entries.get? members t = none) :
    given? (Json.toMembers members) [s, t] = some ((Entries.get? members s).map Json.toTerm) := by
  rw [given?_object distinct (by simpa using differ), spelled]
  cases found : Entries.get? members s <;> simp [found, absent]

end Term

namespace Policy

/-- A setting of a policy; the stamp overrides are none. -/
inductive Setting where
  | verbose
  | transactional
  | actorKey
  | sessionAttribute
  | ignored
  | masked
  | truncateLength
  | domainClassName
  deriving DecidableEq

namespace Setting

/-- The key of a setting in a settled document. -/
def key : Setting → String
  | .verbose => "verbose"
  | .transactional => "transactional"
  | .actorKey => "actorKey"
  | .sessionAttribute => "sessionAttribute"
  | .ignored => "ignoredProperties"
  | .masked => "mask"
  | .truncateLength => "truncateLength"
  | .domainClassName => "auditDomainClassName"

/-- What a setting says. -/
def Value : Setting → Type
  | .verbose | .transactional => Bool
  | .actorKey | .sessionAttribute | .domainClassName => Option String
  | .ignored | .masked => NameSet
  | .truncateLength => Option Nat

/-- Reads a setting, which may be absent. -/
def read : (a : Setting) → Option Term → Option a.Value
  | .verbose | .transactional => Term.defaulted? Term.bool? false
  | .actorKey | .sessionAttribute | .domainClassName => Term.optional? Term.string?
  | .ignored | .masked => Term.defaulted? names? .empty
  | .truncateLength => Term.optional? Term.natural?

/-- Reads a setting of a settled document. -/
def of? (a : Setting) (document : Json) : Option a.Value :=
  a.read ((document.get? a.key).map Json.toTerm)

theorem forall_iff {P : Setting → Prop} :
    (∀ a, P a) ↔ P .verbose ∧ P .transactional ∧ P .actorKey ∧ P .sessionAttribute ∧ P .ignored ∧
      P .masked ∧ P .truncateLength ∧ P .domainClassName := by
  constructor
  · intro all
    exact ⟨all _, all _, all _, all _, all _, all _, all _, all _⟩
  · rintro ⟨verbose, transactional, actorKey, session, ignored, masked, cut, name⟩ a
    cases a <;> assumption

/-- No setting is an object. -/
theorem not_isObject {a : Setting} {v : Json} {x : a.Value}
    (h : a.read (some v.toTerm) = some x) : ¬ v.IsObject := by
  rintro ⟨members, rfl⟩
  cases a <;> nomatch h

end Setting

/-- The setting of a policy. -/
def get (p : Policy) : (a : Setting) → a.Value
  | .verbose => p.verbose
  | .transactional => p.transactional
  | .actorKey => p.actorKey
  | .sessionAttribute => p.sessionAttribute
  | .ignored => p.ignored
  | .masked => p.masked
  | .truncateLength => p.truncateLength
  | .domainClassName => p.domainClassName

/-- The policy of these settings and overrides. -/
def ofSettings (value : (a : Setting) → a.Value) (stamp : OrderedMap String FieldOverride) :
    Policy where
  verbose := value .verbose
  transactional := value .transactional
  actorKey := value .actorKey
  sessionAttribute := value .sessionAttribute
  ignored := value .ignored
  masked := value .masked
  truncateLength := value .truncateLength
  stamp := stamp
  domainClassName := value .domainClassName

theorem get_ofSettings (value : (a : Setting) → a.Value) (stamp : OrderedMap String FieldOverride)
    (a : Setting) : (ofSettings value stamp).get a = value a := by
  cases a <;> rfl

/-- The overrides of a document. -/
def overrides? (document : Json) : Option (OrderedMap String FieldOverride) :=
  Term.defaulted? (Term.map? FieldOverride.decode?) .empty ((document.get? "stamp").map Json.toTerm)

/-- The keys of a settled document, in the order of the fields of a policy. -/
def keys : List String :=
  ["verbose", "transactional", "actorKey", "sessionAttribute", "ignoredProperties", "mask",
    "truncateLength", "stamp", "auditDomainClassName"]

/-- A settled document gives for each field of a policy what it has under its key. -/
theorem fields?_settled {document : Json} (settled : document.Settled) :
    document.toTerm.fields? fieldNames =
      some (keys.map fun key => (document.get? key).map Json.toTerm) := by
  obtain ⟨⟨members, rfl⟩, distinct, spelling⟩ := settled
  cases distinct with | object distinct each => ?_
  have readable : (Json.toMembers members).all (fun m => m.1.isSome) = true := by
    rw [Json.toMembers_eq_map, List.all_map]
    exact List.all_eq_true.2 fun _ _ => rfl
  have ignored := Term.given?_pair distinct (s := "ignoredProperties") (by decide) spelling
  rw [Json.toTerm, Term.fields?, if_pos readable, fieldNames, keys]
  simp only [List.mapM_cons, List.mapM_nil, Term.given?_single distinct, ignored, bind, pure,
    Option.bind_some, List.map_cons, List.map_nil, Json.get?]

/-- A settled document reads as the policy that its settings and its overrides read as. -/
theorem decode?_eq_some_iff {document : Json} (settled : document.Settled) {p : Policy} :
    decode? document.toTerm = some p ↔
      (∀ a : Setting, a.of? document = some (p.get a)) ∧ overrides? document = some p.stamp := by
  rw [Setting.forall_iff, decode?, fields?_settled settled, keys]
  obtain ⟨v, t, k, s, i, m, c, o, n⟩ := p
  simp only [List.map_cons, List.map_nil, bind, Option.bind_eq_some_iff, Option.some.injEq,
    mk.injEq, Setting.of?, Setting.read, Setting.key, overrides?, get]
  constructor
  · rintro ⟨_, verbose, _, transactional, _, key, _, session, _, ignored, _, masked, _, cut, _,
      stamp, _, name, rfl, rfl, rfl, rfl, rfl, rfl, rfl, rfl, rfl⟩
    exact ⟨⟨verbose, transactional, key, session, ignored, masked, cut, name⟩, stamp⟩
  · rintro ⟨⟨verbose, transactional, key, session, ignored, masked, cut, name⟩, stamp⟩
    exact ⟨_, verbose, _, transactional, _, key, _, session, _, ignored, _, masked, _, cut, _,
      stamp, _, name, rfl, rfl, rfl, rfl, rfl, rfl, rfl, rfl, rfl⟩

/-- Documents that agree on the keys read as the same policy. -/
theorem decode?_congr {d e : Json} (settled : d.Settled) (settled' : e.Settled)
    (agree : ∀ key ∈ keys, d.get? key = e.get? key) :
    decode? d.toTerm = decode? e.toTerm := by
  have fields : keys.map (fun key => (d.get? key).map Json.toTerm) =
      keys.map fun key => (e.get? key).map Json.toTerm :=
    List.map_congr_left fun key listed => congrArg (Option.map Json.toTerm) (agree key listed)
  rw [decode?, decode?, fields?_settled settled, fields?_settled settled', fields]

end Policy

end ChangeAudit
