import ChangeAudit.Fault
import ChangeAudit.Text.Blank

/-!
# Who acts

A `Resolver` answers who is responsible for a transition. The one over a session reads one attribute
of it: a named attribute is the actor; otherwise a key of names between dots names the attribute
first and then members inside its value. Names that are empty count as not given. A failure to
resolve counts as nobody when a change is recorded (`Resolver.orAbsent`).
-/

namespace ChangeAudit

/-- What a session answers when an attribute is read. -/
structure Session where
  read : String → Except Fault (Option Json)

/-- A way to find the current actor. -/
inductive Resolver where
  | nobody
  | answering (answer : Except Fault (Option String))
  | session (source : Session) (named key : Option String)

namespace Resolver

/-- The actor that a value names: nobody for null and the empty string, the text of the value if it
is not a string. -/
def actorOf : Json → Option String
  | .null => none
  | .string s => if s = "" then none else some s
  | other => some other.text

/-- A name that is given and not empty. -/
def given (name : Option String) : Option String := name.filter (· ≠ "")

/-- The names between the dots of a key. -/
def segments (key : String) : List String := (Text.pieces '.' key.toList).map String.ofList

/-- The actor that a session attribute names, found along a path inside its value. -/
def lookup (source : Session) (root : String) (path : List String) :
    Except Fault (Option String) :=
  match source.read root with
  | .error e => .error e
  | .ok none => .ok none
  | .ok (some value) => .ok ((value.at? path).bind actorOf)

/-- The current actor. -/
def resolve : Resolver → Except Fault (Option String)
  | .nobody => .ok none
  | .answering answer => answer
  | .session source named key =>
    match given named, given key with
    | some name, _ => lookup source name []
    | none, some key =>
      match segments key with
      | [] => .ok none
      | root :: path => lookup source root path
    | none, none => .ok none

/-- The current actor, nobody if that cannot be told. -/
def orAbsent (r : Resolver) : Option String :=
  match r.resolve with
  | .ok actor => actor
  | .error _ => none

end Resolver

end ChangeAudit
