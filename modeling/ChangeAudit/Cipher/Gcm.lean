import ChangeAudit.Cipher.Aes256
import ChangeAudit.Power

/-!
# Authenticated encryption in counter mode

`sealBytes` adds a key stream to the message and appends a tag of sixteen bytes over the associated
data and the result; `openBytes?` checks the tag before it takes the key stream off again. The key
stream and the tag depend on the key and a nonce of twelve bytes. The tag is a polynomial over the
field of `2 ^ 128` elements, whose elements are written with the lowest power first.
-/

namespace ChangeAudit.Cipher.Gcm

/-- The number that bytes write, most significant first. -/
def ofBytes (bytes : List UInt8) : Nat := bytes.foldl (fun acc b => acc * 256 + b.toNat) 0

/-- The last `count` bytes of a number, most significant first. -/
def toBytes (count n : Nat) : List UInt8 :=
  (List.range count).reverse.map fun i => UInt8.ofNat (n / 256 ^ i % 256)

/-- A field element times the indeterminate. -/
def shift (v : Nat) : Nat := if v % 2 = 0 then v / 2 else (v / 2) ^^^ (0xe1 <<< 120)

/-- The product of two field elements, over the lowest `count` bits of `x` from the top. -/
def timesFrom (x : Nat) : (count : Nat) → (v acc : Nat) → Nat
  | 0, _, acc => acc
  | count + 1, v, acc =>
    timesFrom x count (shift v) (if x.testBit count then acc ^^^ v else acc)

/-- The product of two field elements. -/
def times (x y : Nat) : Nat := timesFrom x 128 y 0

/-- The number of blocks that bytes fill. -/
def blockCount (bytes : List UInt8) : Nat := (bytes.length + 15) / 16

/-- The blocks of the bytes as numbers, the last one filled up with zeros. -/
def blocks (bytes : List UInt8) : List Nat :=
  let full := bytes ++ List.replicate (16 * blockCount bytes - bytes.length) 0
  (Aes256.groups 16 (blockCount bytes) full).map ofBytes

/-- The polynomial of a list of blocks at a point. -/
def hash (point : Nat) (xs : List Nat) : Nat :=
  xs.foldl (fun acc x => times (acc ^^^ x) point) 0

/-- The counter block of a nonce. -/
def counterBlock (nonce : List UInt8) (counter : Nat) : List UInt8 := nonce ++ toBytes 4 counter

/-- The key stream for so many blocks. -/
def keyStream (keys : List (List UInt8)) (nonce : List UInt8) (count : Nat) : List UInt8 :=
  (List.range count).flatMap fun i => Aes256.encrypt keys (counterBlock nonce (i + 2))

/-- The tag over the associated data and the encrypted message. -/
def tag (keys : List (List UInt8)) (nonce associated encrypted : List UInt8) : List UInt8 :=
  let point := ofBytes (Aes256.encrypt keys (List.replicate 16 0))
  let sizes := 8 * associated.length * 2 ^ 64 + 8 * encrypted.length
  let sum := hash point (blocks associated ++ blocks encrypted ++ [sizes])
  xorBytes (toBytes 16 sum) (Aes256.encrypt keys (counterBlock nonce 1))

/-- A message with the key stream added. -/
def mask (keys : List (List UInt8)) (nonce message : List UInt8) : List UInt8 :=
  xorBytes message (keyStream keys nonce (blockCount message))

/-- The encrypted message followed by its tag. -/
def sealBytes (key : Key) (nonce associated message : List UInt8) : List UInt8 :=
  let keys := Aes256.roundKeys key
  let encrypted := mask keys nonce message
  encrypted ++ tag keys nonce associated encrypted

/-- The message of a sealed one; none if the tag does not fit. -/
def openBytes? (key : Key) (nonce associated sealed : List UInt8) : Option (List UInt8) :=
  let keys := Aes256.roundKeys key
  let encrypted := sealed.take (sealed.length - 16)
  if 16 ≤ sealed.length ∧ sealed.drop (sealed.length - 16) = tag keys nonce associated encrypted then
    some (mask keys nonce encrypted)
  else none

end ChangeAudit.Cipher.Gcm
