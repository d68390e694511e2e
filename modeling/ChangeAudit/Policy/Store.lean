import ChangeAudit.Policy.Source

/-!
# The policy store

A `PolicyStore` holds a document of defaults, a primary document over it, and the live policy made
of the two. `materialize` makes a policy: the layered document has to decode, its stamp overrides
have to build a plan, and the resolver is the registered one, or reads the session if one is
registered and the policy names an attribute or a key. Every operation answers with the store after
it, also when it fails; `step` runs one, given as data.
-/

namespace ChangeAudit

/-- Documents, registered sources of the actor, and the policy made of them. -/
structure PolicyStore where
  defaults : Json
  primary : Json
  resolver : Option Resolver
  session : Option Session
  live : LivePolicy

/-- The document without members. -/
def Json.emptyObject : Json := .object []

namespace PolicyStore

/-- The built-in defaults document. -/
def standardDocument : Json :=
  .object [("verbose", .bool false), ("transactional", .bool false),
    ("ignoredProperties", .strings ["version", "lastUpdated", "lastUpdatedBy"]),
    ("mask", .strings ["password"])]

/-- The resolver of a policy: the registered one, else the session if the policy asks for it. -/
def chooseResolver (resolver : Option Resolver) (session : Option Session) (p : Policy) : Resolver :=
  match resolver, session with
  | some r, _ => r
  | none, some s =>
    if p.sessionAttribute.isSome ∨ p.actorKey.isSome then
      .session s p.sessionAttribute p.actorKey
    else .nobody
  | none, none => .nobody

/-- The policy of a layered document. -/
def policyOf (document : Json) : Except PolicyFault Policy :=
  match Policy.decode? document.toTerm with
  | none => .error .invalid
  | some p =>
    match p.stampPlan with
    | .ok _ => .ok p
    | .error e => .error (.stamps e)

/-- The live policy of the store's defaults under a primary document. -/
def materialize (s : PolicyStore) (primary : Json) : Except PolicyFault LivePolicy :=
  match policyOf (s.defaults.layer primary) with
  | .ok p => .ok ⟨p, chooseResolver s.resolver s.session p⟩
  | .error e => .error e

/-- The store over the built-in defaults. -/
def standard : PolicyStore :=
  ⟨standardDocument, .emptyObject, none, none, .standard⟩

/-- A store over other defaults. -/
def withDefaults (files : FileArea) (source : PolicySource) : Except PolicyFault PolicyStore :=
  match source.read files with
  | .error e => .error e
  | .ok defaults =>
    let s : PolicyStore := { standard with defaults := defaults }
    match s.materialize s.primary with
    | .ok live => .ok { s with live := live }
    | .error e => .error e

/-- The policy of a document over the defaults, without installing it. -/
def load (s : PolicyStore) (files : FileArea) (source : PolicySource) :
    Except PolicyFault LivePolicy :=
  match source.read files with
  | .ok primary => s.materialize primary
  | .error e => .error e

/-- Replaces the primary document. -/
def reload (s : PolicyStore) (files : FileArea) (source : PolicySource) :
    PolicyStore × Except PolicyFault Unit :=
  match source.read files with
  | .error e => (s, .error e)
  | .ok primary =>
    match s.materialize primary with
    | .ok live => ({ s with primary := primary, live := live }, .ok ())
    | .error e => (s, .error e)

/-- Puts a document underneath the defaults. -/
def loadSecondary (s : PolicyStore) (files : FileArea) (source : PolicySource) :
    PolicyStore × Except PolicyFault Unit :=
  match source.read files with
  | .error e => (s, .error e)
  | .ok extra =>
    let next := { s with defaults := extra.layer s.defaults }
    match next.materialize s.primary with
    | .ok live => ({ next with live := live }, .ok ())
    | .error e => (s, .error e)

/-- Drops the primary document. -/
def reset (s : PolicyStore) : PolicyStore × Except PolicyFault Unit :=
  match s.materialize .emptyObject with
  | .ok live => ({ s with primary := .emptyObject, live := live }, .ok ())
  | .error e => (s, .error e)

/-- Makes the live policy again after a source of the actor was registered. -/
def refresh (s : PolicyStore) : PolicyStore × Except PolicyFault Unit :=
  match s.materialize s.primary with
  | .ok live => ({ s with live := live }, .ok ())
  | .error e => (s, .error e)

/-- Registers the resolver of every later policy. -/
def setResolver (s : PolicyStore) (r : Resolver) : PolicyStore × Except PolicyFault Unit :=
  refresh { s with resolver := some r }

/-- Registers the session that later policies may read. -/
def setSession (s : PolicyStore) (source : Session) : PolicyStore × Except PolicyFault Unit :=
  refresh { s with session := some source }

/-- An operation on a store. -/
inductive Operation where
  | load (source : PolicySource)
  | reload (source : PolicySource)
  | loadSecondary (source : PolicySource)
  | reset
  | setResolver (resolver : Resolver)
  | setSession (source : Session)

/-- Runs an operation. -/
def step (files : FileArea) (s : PolicyStore) : Operation → PolicyStore × Except PolicyFault Unit
  | .load source => (s, (s.load files source).map fun _ => ())
  | .reload source => s.reload files source
  | .loadSecondary source => s.loadSecondary files source
  | .reset => s.reset
  | .setResolver r => s.setResolver r
  | .setSession source => s.setSession source

/-- Runs operations one after the other, whether they succeed or not, each with the files that it
finds. -/
def run (s : PolicyStore) (ops : List (FileArea × Operation)) : PolicyStore :=
  ops.foldl (fun s op => (s.step op.1 op.2).1) s

end PolicyStore

end ChangeAudit
