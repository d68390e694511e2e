import ChangeAudit.Text.Digits

/-!
# Bytes as hexadecimal digits

`Hex.encode` writes two lower-case digits a byte; `Hex.decode?` reads digits in either case and
refuses an odd number of them.
-/

namespace ChangeAudit.Text.Hex

/-- The digits of the bytes. -/
def encode (bytes : List UInt8) : List Char :=
  bytes.flatMap fun b => [hexDigit (b.toNat / 16), hexDigit (b.toNat % 16)]

/-- The bytes that the digits write. -/
def decode? : List Char → Option (List UInt8)
  | [] => some []
  | [_] => none
  | a :: b :: rest => do
    let high ← hexValue? a
    let low ← hexValue? b
    some (UInt8.ofNat (16 * high + low) :: (← decode? rest))

end ChangeAudit.Text.Hex
