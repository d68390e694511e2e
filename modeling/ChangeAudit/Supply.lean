import ChangeAudit.Cipher.Gcm
import ChangeAudit.Text.Digits

/-!
# Fresh ids and nonces

A `Supply` counts what was taken from it. An event id has the layout of a random identifier of
version 4, its free bits counting up; a nonce is twelve bytes, counting up as well. So no id and no
nonce is given out twice.
-/

namespace ChangeAudit

open Text (hexDigit)
open Cipher

/-- How many events and sealings have drawn from the supply. -/
structure Supply where
  events : Nat
  sealings : Nat
  deriving DecidableEq

namespace Supply

/-- Nothing was taken yet. -/
def fresh : Supply := ⟨0, 0⟩

/-- The last `width` hexadecimal digits of a number. -/
def hexDigits (width n : Nat) : List Char :=
  (List.range width).reverse.map fun i => hexDigit (n / 16 ^ i % 16)

/-- The identifier of version 4 with the given 122 free bits. -/
def identifier (n : Nat) : List Char :=
  hexDigits 8 (n / 2 ^ 90) ++ '-' :: (hexDigits 4 (n / 2 ^ 74) ++ '-' :: '4' ::
    (hexDigits 3 (n / 2 ^ 62) ++ '-' :: (hexDigits 4 (2 ^ 15 + n / 2 ^ 48 % 2 ^ 14) ++ '-' ::
      hexDigits 12 n)))

/-- The next event id. -/
def eventId (s : Supply) : String × Supply :=
  (String.ofList ('a' :: 'u' :: 'd' :: '-' :: identifier s.events),
    { s with events := s.events + 1 })

/-- The next nonce. -/
def nonce (s : Supply) : List UInt8 × Supply :=
  (Gcm.toBytes 12 s.sealings, { s with sealings := s.sealings + 1 })

end Supply

end ChangeAudit
