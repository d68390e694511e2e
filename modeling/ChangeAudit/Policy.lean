import ChangeAudit.Actor
import ChangeAudit.NameSet
import ChangeAudit.Stamp.Plan

/-!
# Policies

A `Policy` says what is recorded and how: one event a property or one a transition, at once or on
commit, which properties are ignored, masked or cut, how stamp roles differ from the standard ones,
and where a session holds the actor. It is written to and read from a JSON document. A `LivePolicy`
adds the resolver of the actor, which no document holds.
-/

namespace ChangeAudit

/-- What is recorded and how. -/
structure Policy where
  verbose : Bool
  transactional : Bool
  actorKey : Option String
  sessionAttribute : Option String
  ignored : NameSet
  masked : NameSet
  truncateLength : Option Nat
  stamp : OrderedMap String FieldOverride
  domainClassName : Option String
  deriving DecidableEq

namespace Policy

/-- The policy that holds before any document is loaded. -/
def standard : Policy where
  verbose := false
  transactional := false
  actorKey := none
  sessionAttribute := none
  ignored := .ofList ["version", "lastUpdated", "lastUpdatedBy"]
  masked := .ofList ["password"]
  truncateLength := none
  stamp := .empty
  domainClassName := none

/-- The document of a policy. -/
def toJson (p : Policy) : Json :=
  .struct [("verbose", some (.bool p.verbose)), ("transactional", some (.bool p.transactional)),
    ("actorKey", p.actorKey.map .string), ("sessionAttribute", p.sessionAttribute.map .string),
    ("ignoredProperties", some (.strings p.ignored.names)),
    ("mask", some (.strings p.masked.names)), ("truncateLength", p.truncateLength.map .nat),
    ("stamp", some (.ofMap FieldOverride.toJson p.stamp)),
    ("auditDomainClassName", p.domainClassName.map .string)]

/-- Reads a set of names. -/
def names? (t : Term) : Option NameSet := (t.list? Term.string?).map NameSet.ofList

/-- The fields of a policy document, each with its spellings. -/
def fieldNames : List (List String) :=
  [["verbose"], ["transactional"], ["actorKey"], ["sessionAttribute"],
    ["ignoredProperties", "ignore"], ["mask"], ["truncateLength"], ["stamp"],
    ["auditDomainClassName"]]

/-- Reads a policy. -/
def decode? (t : Term) : Option Policy :=
  match t.fields? fieldNames with
  | some [verbose, transactional, actorKey, sessionAttribute, ignored, masked, truncateLength, stamp,
      domainClassName] => do
    some {
      verbose := ← Term.defaulted? Term.bool? false verbose
      transactional := ← Term.defaulted? Term.bool? false transactional
      actorKey := ← Term.optional? Term.string? actorKey
      sessionAttribute := ← Term.optional? Term.string? sessionAttribute
      ignored := ← Term.defaulted? names? .empty ignored
      masked := ← Term.defaulted? names? .empty masked
      truncateLength := ← Term.optional? Term.natural? truncateLength
      stamp := ← Term.defaulted? (Term.map? FieldOverride.decode?) .empty stamp
      domainClassName := ← Term.optional? Term.string? domainClassName }
  | _ => none

/-- Whether a property is never recorded. -/
def isIgnored (p : Policy) (property : String) : Bool := p.ignored.contains property

/-- Whether the values of a property are hidden. -/
def isMasked (p : Policy) (property : String) : Bool := p.masked.contains property

/-- The stamp plan of the standard roles under the policy's overrides. -/
def stampPlan (p : Policy) : Except StampFault StampPlan := StampPlan.ofOverrides p.stamp

end Policy

/-- A policy with the resolver of the actor. -/
structure LivePolicy where
  policy : Policy
  resolver : Resolver

namespace LivePolicy

/-- The policy that holds before any document is loaded; nobody acts. -/
def standard : LivePolicy := ⟨.standard, .nobody⟩

/-- The current actor, nobody if that cannot be told. -/
def actor (p : LivePolicy) : Option String := p.resolver.orAbsent

end LivePolicy

end ChangeAudit
