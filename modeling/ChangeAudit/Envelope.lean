import ChangeAudit.Fault
import ChangeAudit.Text.Base64

/-!
# Sealed values as text

A sealed value is written `sealed:v1:`, the id of its key, a colon, its nonce, a colon and its
ciphertext, the last two in base64. The id may hold colons and base64 never does, so the last two
colons divide the parts. `Envelope.parse` accepts nothing but what `Envelope.render` writes for
a nonce of twelve bytes.
-/

namespace ChangeAudit

open Text

/-- What a sealed text holds. -/
structure Envelope where
  keyId : String
  nonce : List UInt8
  ciphertext : List UInt8
  deriving DecidableEq

namespace Envelope

/-- The characters that every sealed text starts with. -/
def opening : List Char := "sealed:v1:".toList

/-- The number of bytes of a nonce. -/
def nonceLength : Nat := 12

/-- The characters of a sealed value. -/
def render (v : Envelope) : List Char :=
  opening ++ (v.keyId.toList ++ ':' :: (Base64.encode v.nonce ++ ':' :: Base64.encode v.ciphertext))

/-- The text of a sealed value. -/
def text (v : Envelope) : String := String.ofList v.render

/-- The characters after an opening, if the text starts with it. -/
def dropOpening? : List Char → List Char → Option (List Char)
  | [], cs => some cs
  | _ :: _, [] => none
  | o :: os, c :: cs => if o = c then dropOpening? os cs else none

/-- The characters before and after the last occurrence of a mark. -/
def splitLast? (mark : Char) : List Char → Option (List Char × List Char)
  | [] => none
  | c :: cs =>
    match splitLast? mark cs with
    | some (before, after) => some (c :: before, after)
    | none => if c = mark then some ([], cs) else none

/-- The key id, nonce and ciphertext as written, between the last two colons. -/
def parts? (body : List Char) : Option (List Char × List Char × List Char) := do
  let (front, ciphertext) ← splitLast? ':' body
  let (keyId, nonce) ← splitLast? ':' front
  some (keyId, nonce, ciphertext)

/-- The sealed value that the characters write. -/
def parseChars (cs : List Char) : Except SealFault Envelope :=
  match dropOpening? opening cs with
  | none => .error .notSealed
  | some body =>
    match parts? body with
    | none => .error .truncated
    | some (keyId, nonce, ciphertext) =>
      match Base64.decode? nonce with
      | none => .error .badNonce
      | some nonce =>
        if nonce.length ≠ nonceLength then .error (.nonceLength nonce.length)
        else
          match Base64.decode? ciphertext with
          | none => .error .badCiphertext
          | some ciphertext => .ok ⟨String.ofList keyId, nonce, ciphertext⟩

/-- The sealed value that a text writes. -/
def parse (text : String) : Except SealFault Envelope := parseChars text.toList

/-- Whether a text writes a sealed value. -/
def isSealed (text : String) : Bool :=
  match parse text with
  | .ok _ => true
  | .error _ => false

end Envelope

end ChangeAudit
