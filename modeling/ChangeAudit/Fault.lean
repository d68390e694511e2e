import ChangeAudit.Json.Printer

/-!
# What can go wrong

A `Fault` is a cause. `Fault.message` words it for people; where the wording would repeat what a
reader or the file system has to say, `unsaid` stands instead.
-/

namespace ChangeAudit

/-- Stands in a message for the words of the part that failed. -/
def unsaid : String := "*"

/-- Why role defaults and overrides make no stamp plan. -/
inductive StampFault where
  /-- Two kept roles would share a field; the first one had it already. -/
  | conflict (field first second : String)
  /-- An override names a role that has no default, and no kind of value to start from. -/
  | unknownRole (role : String)
  deriving DecidableEq

/-- Why a document makes no policy. -/
inductive PolicyFault where
  | unparsable
  | unparsableFile (path : String)
  | unreadableFile (path : String)
  | notAnObject (found : Json)
  | invalid
  | stamps (cause : StampFault)
  deriving DecidableEq

/-- Why a sink does not accept a batch or read it back. -/
inductive SinkFault where
  | read (path : String)
  | openFile (path : String)
  | write (path : String)
  | flush (path : String)
  | createDirectory (path : String)
  | refused (reason : String)
  deriving DecidableEq

/-- Why a value is not sealed or a sealed one not opened. -/
inductive SealFault where
  | notSealed
  | truncated
  | badNonce
  | nonceLength (length : Nat)
  | badCiphertext
  | unknownKey (key : String)
  | unopened (property key : String)
  | notText
  | unregisteredKey (key : String)
  | refused (reason : String)
  deriving DecidableEq

/-- The cause of a failed operation. -/
inductive Fault where
  | stamp (cause : StampFault)
  | missingActor (entityType field : String)
  | actor (reason : String)
  | handler (name reason : String)
  | policy (cause : PolicyFault)
  | unreadable
  | sink (cause : SinkFault)
  | sealing (cause : SealFault)
  deriving DecidableEq

/-- The wording of a stamp fault. -/
def StampFault.message : StampFault → String
  | .conflict field first second =>
    s!"Stamp roles '{first}' and '{second}' both map to field '{field}'"
  | .unknownRole role => s!"Unknown stamp role '{role}'"

/-- The wording of a policy fault. -/
def PolicyFault.message : PolicyFault → String
  | .unparsable => s!"Failed to parse audit config: {unsaid}"
  | .unparsableFile path => s!"Failed to parse audit config {path}: {unsaid}"
  | .unreadableFile path => s!"Failed to read audit config {path}: {unsaid}"
  | .notAnObject found => "Audit config must be an object, got " ++ found.text
  | .invalid => s!"Invalid audit config: {unsaid}"
  | .stamps cause => "Invalid stamp overrides in audit config: " ++ cause.message

/-- The wording of a sink fault. -/
def SinkFault.message : SinkFault → String
  | .read path => s!"Failed to read audit file {path}: {unsaid}"
  | .openFile path => s!"Failed to open audit file {path}: {unsaid}"
  | .write path => s!"Failed to write audit file {path}: {unsaid}"
  | .flush path => s!"Failed to flush audit file {path}: {unsaid}"
  | .createDirectory path => s!"Failed to create audit directory {path}: {unsaid}"
  | .refused reason => reason

/-- The wording of a sealing fault. -/
def SealFault.message : SealFault → String
  | .notSealed => "Value is not sealed"
  | .truncated => "Truncated sealed value"
  | .badNonce => s!"Bad nonce: {unsaid}"
  | .nonceLength length => s!"Nonce must be 12 bytes, got {length}"
  | .badCiphertext => s!"Bad ciphertext: {unsaid}"
  | .unknownKey key => s!"Unknown sealing key '{key}'"
  | .unopened property key => s!"Value for '{property}' does not unseal with key '{key}'"
  | .notText => s!"Unsealed value is not UTF-8: {unsaid}"
  | .unregisteredKey key => s!"Cannot rotate to unregistered key '{key}'"
  | .refused reason => reason

/-- The wording of a fault. -/
def Fault.message : Fault → String
  | .stamp cause => cause.message
  | .missingActor entityType field =>
    s!"No actor available for non-nullable field '{field}' on '{entityType}'"
  | .actor reason => s!"Actor resolution failed: {reason}"
  | .handler name reason => s!"Handler '{name}' failed: {reason}"
  | .policy cause => "Configuration error: " ++ cause.message
  | .unreadable => s!"Serialization error: {unsaid}"
  | .sink cause => "Sink error: " ++ cause.message
  | .sealing cause => "Encryption error: " ++ cause.message

end ChangeAudit
