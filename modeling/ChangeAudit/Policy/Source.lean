import ChangeAudit.FileArea
import ChangeAudit.Policy

/-!
# Policy documents

A document comes as text, from a file, or as a value. It may hold its keys in a section of its own,
and may spell the ignored properties `ignore`: `normalize` unwraps the section and settles on one
spelling, so that documents can be layered. A null document is an empty one; any other value that is
not an object is refused.
-/

namespace ChangeAudit

/-- Where a policy document comes from. -/
inductive PolicySource where
  | text (contents : String)
  | file (path : String)
  | document (value : Json)

namespace PolicySource

/-- The section that may hold the keys of a document. -/
def sectionKey : String := "auditLog"

/-- The contents of the section, if the document has it. -/
def unwrap : Json → Json
  | .object members => (Entries.get? members sectionKey).getD (.object members)
  | other => other

/-- The members with `ignore` spelled `ignoredProperties`, unless that is there too. -/
def settleSpelling (members : List (String × Json)) : List (String × Json) :=
  match Entries.get? members "ignore" with
  | none => members
  | some ignore =>
    let rest := Entries.swapErase members "ignore"
    match Entries.get? rest "ignoredProperties" with
    | some _ => rest
    | none => rest ++ [("ignoredProperties", ignore)]

/-- The effective document. -/
def normalize (document : Json) : Except PolicyFault Json :=
  match unwrap document with
  | .object members => .ok (.object (settleSpelling members))
  | .null => .ok (.object [])
  | other => .error (.notAnObject other)

/-- The document as it is found. -/
def contents (files : FileArea) : PolicySource → Except PolicyFault Json
  | .text s =>
    match Json.parse? s with
    | some j => .ok j
    | none => .error .unparsable
  | .file path =>
    match files.read path with
    | .text s =>
      match Json.parse? s with
      | some j => .ok j
      | none => .error (.unparsableFile path)
    | _ => .error (.unreadableFile path)
  | .document j => .ok j

/-- Reads the effective document. -/
def read (files : FileArea) (source : PolicySource) : Except PolicyFault Json :=
  match source.contents files with
  | .ok j => normalize j
  | .error e => .error e

end PolicySource

end ChangeAudit
