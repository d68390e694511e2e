/-!
# The AES block cipher with 256-bit keys

A block is sixteen bytes, column after column. The substitution is the inverse in the field of 256
elements followed by an affine map, tabulated once; the key schedule is a list of sixty words, four
to a round.
-/

namespace ChangeAudit.Cipher

/-- A key of 32 bytes. -/
structure Key where
  bytes : List UInt8
  length_eq : bytes.length = 32
  deriving DecidableEq

/-- The key made of these bytes, if there are 32. -/
def Key.ofBytes? (bytes : List UInt8) : Option Key :=
  if h : bytes.length = 32 then some ⟨bytes, h⟩ else none

/-- Byte by byte exclusive or, as long as the shorter list. -/
def xorBytes (a b : List UInt8) : List UInt8 := List.zipWith (· ^^^ ·) a b

namespace Aes256

/-- Twice an element of the field. -/
def double (a : UInt8) : UInt8 := if a < 128 then a <<< 1 else (a <<< 1) ^^^ 0x1b

/-- The product of two field elements, over the bits of the second from the top. -/
def times (a b : UInt8) : UInt8 :=
  [7, 6, 5, 4, 3, 2, 1, 0].foldl
    (fun acc i => double acc ^^^ (if (b >>> i) &&& 1 = 1 then a else 0)) 0

/-- The inverse of a field element, zero for zero: its power with exponent 254. -/
def inverse (a : UInt8) : UInt8 :=
  (List.range 253).foldl (fun acc _ => times acc a) a

/-- A byte turned left by some bits. -/
def turn (a : UInt8) (k : UInt8) : UInt8 := (a <<< k) ||| (a >>> (8 - k))

/-- The substitution of a byte. -/
def substitute (a : UInt8) : UInt8 :=
  let b := inverse a
  b ^^^ turn b 1 ^^^ turn b 2 ^^^ turn b 3 ^^^ turn b 4 ^^^ 0x63

/-- The substitution as a table. -/
def substitution : Array UInt8 := ((List.range 256).map fun n => substitute (UInt8.ofNat n)).toArray

/-- The substitution of a byte, from the table. -/
def sub (a : UInt8) : UInt8 := substitution.getD a.toNat 0

/-- The word that the schedule mixes into word `i`, from the word before it. -/
def mixWord (i : Nat) (last : List UInt8) (round : UInt8) : List UInt8 :=
  if i % 8 = 0 then
    match last with
    | [a, b, c, d] => [sub b ^^^ round, sub c, sub d, sub a]
    | other => other
  else if i % 8 = 4 then last.map sub
  else last

/-- The words of the schedule from word `i` on, after those in `words`. -/
def extend (words : Array (List UInt8)) (i : Nat) (round : UInt8) : (count : Nat) →
    Array (List UInt8)
  | 0 => words
  | count + 1 =>
    let word := xorBytes (words.getD (i - 8) []) (mixWord i (words.getD (i - 1) []) round)
    extend (words.push word) (i + 1) (if i % 8 = 0 then double round else round) count

/-- The bytes in groups of a size. -/
def groups (size : Nat) : (count : Nat) → List UInt8 → List (List UInt8)
  | 0, _ => []
  | count + 1, bytes => bytes.take size :: groups size count (bytes.drop size)

/-- The fifteen round keys. -/
def roundKeys (key : Key) : List (List UInt8) :=
  let words := extend (groups 4 8 key.bytes).toArray 8 1 52
  groups 16 15 words.toList.flatten

/-- Turns row `r` of a block left by `r` columns. -/
def shiftRows (block : List UInt8) : List UInt8 :=
  let bytes := block.toArray
  (List.range 16).map fun k => bytes.getD ((k + 4 * (k % 4)) % 16) 0

/-- Mixes the four bytes of a column. -/
def mixColumn : List UInt8 → List UInt8
  | [a, b, c, d] =>
    [double a ^^^ (double b ^^^ b) ^^^ c ^^^ d, a ^^^ double b ^^^ (double c ^^^ c) ^^^ d,
      a ^^^ b ^^^ double c ^^^ (double d ^^^ d), (double a ^^^ a) ^^^ b ^^^ c ^^^ double d]
  | other => other

/-- The rounds after the first key was added; the last one does not mix. -/
def rounds : List (List UInt8) → List UInt8 → List UInt8
  | [], block => block
  | [last], block => xorBytes (shiftRows (block.map sub)) last
  | key :: keys, block =>
    rounds keys (xorBytes ((groups 4 4 (shiftRows (block.map sub))).flatMap mixColumn) key)

/-- The encryption of a block under round keys. -/
def encrypt (keys : List (List UInt8)) (block : List UInt8) : List UInt8 :=
  match keys with
  | [] => block
  | first :: rest => rounds rest (xorBytes block first)

end Aes256

end ChangeAudit.Cipher
