import ChangeAudit.OrderedMap
import ChangeAudit.Text.Blank
import ChangeAudit.Text.Utf8

/-!
# A tree of files

Just enough of a file system to hold policy documents and event files: directories, and files with
their bytes. A written path is followed from the top name by name (`FileArea.follow`): an empty name
or a single dot stays, two dots go up, and any other name is looked up in the directory reached so
far, which has to be there. Reading gives a text and tells a missing file from one that cannot be
read or is not UTF-8. Creating directories goes the same way and adds those that are missing; where
it is stopped, the ones that it added before stay.

An append may fail although a file can be there: it may not be opened, and writing or flushing may
stop after any number of bytes, which then stay. A tree says how its coming appends go.
-/

namespace ChangeAudit

/-- The names of a node from the top. -/
abbrev Path := List String

/-- The names of a written path, between its slashes. -/
def pathNames (written : String) : List String :=
  (Text.pieces '/' written.toList).map String.ofList

/-- Whether a name stays in the directory that is reached. -/
def staysPut (name : String) : Bool := name = "" || name = "."

/-- The written path without its last name; none if it has no name. -/
def parentOf? (written : String) : Option String :=
  match (pathNames written).reverse.dropWhile staysPut with
  | [] => none
  | _ :: above => some ("/".intercalate (above.dropWhile staysPut).reverse)

/-- Whether the last name of a written path is a single dot. -/
def endsInDot (written : String) : Bool :=
  ((pathNames written).reverse.dropWhile (· = "")).head? = some "."

/-- The number of bytes that a name may have. -/
def nameLimit : Nat := 255

/-- The number of bytes that a written path may have. -/
def pathLimit : Nat := 4095

/-- Whether a written path may name anything: it is not too long and has no null character. -/
def isPathText (written : String) : Bool :=
  written.utf8ByteSize ≤ pathLimit && written.toList.all (· ≠ '\x00')

/-- What is at a path. -/
inductive FileNode where
  | directory
  | file (bytes : List UInt8)
  deriving DecidableEq

/-- Where a written path ends. -/
inductive Spot where
  | directory (path : Path)
  | file (path : Path) (bytes : List UInt8)
  /-- Nothing is there, but its directory is. -/
  | free (path : Path)
  /-- A directory on the way is missing. -/
  | missing
  /-- A file stands in the way, or a name on the way is too long. -/
  | blocked
  deriving DecidableEq

/-- Whether a directory is there. -/
def Spot.isDirectory : Spot → Bool
  | .directory _ => true
  | _ => false

/-- Where an append would write, and the bytes that are there. -/
def Spot.target? : Spot → Option (Path × List UInt8)
  | .file path bytes => some (path, bytes)
  | .free path => some (path, [])
  | .directory _ | .missing | .blocked => none

/-- How an append goes. -/
inductive Appending where
  | whole
  /-- The file is not opened. -/
  | unopened
  /-- Writing fails after so many bytes. -/
  | unwritten (after : Nat)
  /-- Flushing fails, and so many bytes are written. -/
  | unflushed (after : Nat)
  deriving DecidableEq

/-- What gets into an opened file. -/
def Appending.part (bytes : List UInt8) : Appending → List UInt8
  | .whole => bytes
  | .unopened => []
  | .unwritten after | .unflushed after => bytes.take after

/-- The nodes of a tree by path; the empty path is a directory. -/
structure FileArea where
  nodes : OrderedMap Path FileNode
  /-- How the coming appends go, the next one first; the ones beyond go whole. -/
  appends : List Appending

namespace FileArea

/-- The tree with its top directory only. -/
def empty : FileArea := ⟨.empty, []⟩

/-- What is at a path. -/
def node? (a : FileArea) (path : Path) : Option FileNode :=
  if path = [] then some .directory else a.nodes.get? path

/-- Puts a node at a path. -/
def put (a : FileArea) (path : Path) (node : FileNode) : FileArea :=
  { a with nodes := a.nodes.insert path node }

/-- Where names lead from a directory. -/
def followFrom (a : FileArea) (here : Path) : List String → Spot
  | [] => .directory here
  | name :: rest =>
    if staysPut name then a.followFrom here rest
    else if name = ".." then a.followFrom here.dropLast rest
    else if nameLimit < name.utf8ByteSize then .blocked
    else
      match a.node? (here ++ [name]), rest with
      | some .directory, rest => a.followFrom (here ++ [name]) rest
      | some (.file bytes), [] => .file (here ++ [name]) bytes
      | some (.file _), _ :: _ => .blocked
      | none, [] => .free (here ++ [name])
      | none, _ :: _ => .missing

/-- Where a written path leads from the top. -/
def follow (a : FileArea) (written : String) : Spot :=
  if isPathText written then a.followFrom [] (pathNames written) else .blocked

/-- What reading a file gives. -/
inductive Content where
  | text (s : String)
  | missing
  | refused
  deriving DecidableEq

/-- Reads a file. -/
def read (a : FileArea) (written : String) : Content :=
  match a.follow written with
  | .file _ bytes =>
    match Text.Utf8.decode? bytes with
    | some text => .text text
    | none => .refused
  | .free _ | .missing => .missing
  | .directory _ | .blocked => .refused

/-- Adds the directories that names lead through and are missing; says whether nothing stood in the
way. -/
def createFrom (a : FileArea) (here : Path) : List String → FileArea × Bool
  | [] => (a, true)
  | name :: rest =>
    if staysPut name then a.createFrom here rest
    else if name = ".." then a.createFrom here.dropLast rest
    else if nameLimit < name.utf8ByteSize then (a, false)
    else
      match a.node? (here ++ [name]) with
      | some .directory => a.createFrom (here ++ [name]) rest
      | some (.file _) => (a, false)
      | none => (a.put (here ++ [name]) .directory).createFrom (here ++ [name]) rest

/-- Creates a directory and those above it, as far as nothing stands in the way. A path that ends in a
dot only points to a directory: those above that one are created, itself it has to be there. -/
def createDirectories (a : FileArea) (written : String) : FileArea × Bool :=
  if !isPathText written then (a, false)
  else if endsInDot written then
    let (a, _) := a.createFrom [] (pathNames ((parentOf? written).getD ""))
    (a, (a.follow written).isDirectory)
  else a.createFrom [] (pathNames written)

/-- Creates the directories above a path. -/
def createAbove (a : FileArea) (written : String) : FileArea × Bool :=
  match parentOf? written with
  | some above => a.createDirectories above
  | none => (a, true)

/-- How the next append goes where a file can be. -/
def nextAppend (a : FileArea) : Appending := a.appends.headD .whole

/-- The tree with the appends after the next one to come. -/
def passAppend (a : FileArea) : FileArea := { a with appends := a.appends.tail }

/-- Appends to a file in a directory that exists, creating the file if it is missing, as far as the
next append goes. -/
def append (a : FileArea) (written : String) (bytes : List UInt8) : FileArea × Appending :=
  match (a.follow written).target?, a.nextAppend with
  | none, _ | _, .unopened => (a.passAppend, .unopened)
  | some (path, before), how => (a.passAppend.put path (.file (before ++ how.part bytes)), how)

/-- Replaces the text of a file in a directory that exists, creating the file if it is missing. -/
def replace? (a : FileArea) (written text : String) : Option FileArea :=
  match a.follow written with
  | .file path _ | .free path => some (a.put path (.file (Text.Utf8.encode text)))
  | .directory _ | .missing | .blocked => none

end FileArea

end ChangeAudit
