import ChangeAudit.Cipher.Gcm
import ChangeAudit.Envelope
import ChangeAudit.Text.Utf8

/-!
# Key rings

A `Keyring` seals values with its active key and opens those of every key that it holds, so that a
value sealed before a rotation stays readable. A sealed value belongs to the property that it was
sealed for. `step` runs an operation on a ring, given as data.
-/

namespace ChangeAudit

open Text
open Cipher

/-- Keys by id, and the id of the one that seals. -/
structure Keyring where
  active : String
  keys : OrderedMap String Key

namespace Keyring

/-- The ring of one key, which is active. -/
def new (keyId : String) (key : Key) : Keyring := ⟨keyId, OrderedMap.empty.insert keyId key⟩

/-- Registers a key, in place of the one that had its id; the active id stays. -/
def withKey (r : Keyring) (keyId : String) (key : Key) : Keyring :=
  { r with keys := r.keys.insert keyId key }

/-- Makes a registered key the active one. -/
def rotateTo (r : Keyring) (keyId : String) : Except SealFault Keyring :=
  if r.keys.contains keyId then .ok { r with active := keyId } else .error (.unregisteredKey keyId)

/-- The registered ids, in order of registration. -/
def keyIds (r : Keyring) : List String := r.keys.keys

/-- The key of an id. -/
def key (r : Keyring) (keyId : String) : Except SealFault Key :=
  match r.keys.get? keyId with
  | some k => .ok k
  | none => .error (.unknownKey keyId)

/-- Seals a text for a property under a nonce. -/
def sealText (r : Keyring) (nonce : List UInt8) (property plain : String) :
    Except SealFault String :=
  match r.key r.active with
  | .error e => .error e
  | .ok key =>
    .ok (Envelope.text
      ⟨r.active, nonce, Gcm.sealBytes key nonce (Utf8.encode property) (Utf8.encode plain)⟩)

/-- Opens a text that was sealed for a property. -/
def openText (r : Keyring) (property sealed : String) : Except SealFault String :=
  match Envelope.parse sealed with
  | .error e => .error e
  | .ok v =>
    match r.key v.keyId with
    | .error e => .error e
    | .ok key =>
      match Gcm.openBytes? key v.nonce (Utf8.encode property) v.ciphertext with
      | none => .error (.unopened property v.keyId)
      | some bytes =>
        match Utf8.decode? bytes with
        | none => .error .notText
        | some plain => .ok plain

/-- An operation that may change a ring. -/
inductive Operation where
  | withKey (keyId : String) (key : Key)
  | rotateTo (keyId : String)

/-- Runs an operation; a rotation that fails changes nothing. -/
def step (r : Keyring) : Operation → Keyring
  | .withKey keyId key => r.withKey keyId key
  | .rotateTo keyId =>
    match r.rotateTo keyId with
    | .ok next => next
    | .error _ => r

/-- Runs operations one after the other. -/
def run (r : Keyring) (ops : List Operation) : Keyring := ops.foldl step r

end Keyring

end ChangeAudit
