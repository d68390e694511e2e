import ChangeAudit.Json.Numeral

/-!
# JSON text as written

A `Term` is what a JSON text says before anything is made of it: members stay in their order with
their repetitions, and a value that is well written but stands for nothing is kept as `unreadable`:
a number too great for a double, a string with a lone surrogate, an array or object more than 127
deep. So a reader that skips a member skips its value whatever it is, and one that needs it fails.
`Term.parse?` reads a text; `Json.toTerm` and `Term.json?` pass between terms and values.
-/

namespace ChangeAudit

open Text (hexValue?)

/-- A value as written. -/
inductive Term where
  | null
  | bool (value : Bool)
  | number (value : Number)
  | string (text : String)
  | array (items : List Term)
  | object (members : List (Option String × Term))
  | unreadable
  deriving Inhabited

namespace Term

/-- The four characters that may stand between tokens. -/
def isBlank (c : Char) : Bool := c = ' ' || c = '\n' || c = '\t' || c = '\r'

/-- Drops the blanks in front. -/
def skipBlanks (cs : List Char) : List Char := cs.dropWhile isBlank

/-- A piece of a string: a character, or a surrogate written by its code. -/
inductive Piece where
  | char (c : Char)
  | surrogate (unit : Nat)

/-- The piece that a four-digit code writes. -/
def Piece.ofUnit (u : Nat) : Piece :=
  if 0xD800 ≤ u ∧ u ≤ 0xDFFF then .surrogate u else .char (Char.ofNat u)

/-- The character that a letter after a backslash stands for. -/
def unescape? : Char → Option Char
  | '"' => some '"'
  | '\\' => some '\\'
  | '/' => some '/'
  | 'b' => some '\x08'
  | 'f' => some '\x0c'
  | 'n' => some '\n'
  | 'r' => some '\r'
  | 't' => some '\t'
  | _ => none

/-- The number of four hexadecimal digits. -/
def hexUnit? (a b c d : Char) : Option Nat := do
  some (4096 * (← hexValue? a) + 256 * (← hexValue? b) + 16 * (← hexValue? c) + (← hexValue? d))

/-- The pieces up to the closing quote, and the text after it. -/
def scanPieces : List Char → Option (List Piece × List Char)
  | [] => none
  | '"' :: rest => some ([], rest)
  | '\\' :: 'u' :: a :: b :: c :: d :: rest =>
    match hexUnit? a b c d, scanPieces rest with
    | some u, some (ps, rest) => some (Piece.ofUnit u :: ps, rest)
    | _, _ => none
  | '\\' :: e :: rest =>
    match unescape? e, scanPieces rest with
    | some c, some (ps, rest) => some (.char c :: ps, rest)
    | _, _ => none
  | c :: rest =>
    if c.toNat < 32 ∨ c = '\\' then none
    else
      match scanPieces rest with
      | some (ps, rest) => some (.char c :: ps, rest)
      | none => none

/-- The characters of the pieces; none if a surrogate stands without its other half. -/
def joinPieces? : List Piece → Option (List Char)
  | [] => some []
  | .char c :: ps => (joinPieces? ps).map (c :: ·)
  | .surrogate high :: .surrogate low :: ps =>
    if high < 0xDC00 ∧ 0xDC00 ≤ low then
      (joinPieces? ps).map
        (Char.ofNat (0x10000 + (high - 0xD800) * 0x400 + (low - 0xDC00)) :: ·)
    else none
  | .surrogate _ :: _ => none

/-- A string after its opening quote: none inside if it stands for no text. -/
def scanString (cs : List Char) : Option (Option String × List Char) :=
  (scanPieces cs).map fun (ps, rest) => ((joinPieces? ps).map String.ofList, rest)

/-- A word or a numeral. -/
def scanAtom : List Char → Option (Term × List Char)
  | 'n' :: 'u' :: 'l' :: 'l' :: rest => some (.null, rest)
  | 't' :: 'r' :: 'u' :: 'e' :: rest => some (.bool true, rest)
  | 'f' :: 'a' :: 'l' :: 's' :: 'e' :: rest => some (.bool false, rest)
  | cs =>
    (Numeral.scan cs).map fun (n, rest) =>
      (match n.value? with
        | some v => .number v
        | none => .unreadable, rest)

/-- The greatest number of arrays and objects around a value. -/
def maxDepth : Nat := 127

/-- An array or object, readable if not too many stand around it. -/
def nested (depth : Nat) (t : Term) : Term := if depth < maxDepth then t else .unreadable

mutual

/-- Reads one value that `depth` arrays and objects surround. -/
def scanValue : (fuel : Nat) → (depth : Nat) → List Char → Option (Term × List Char)
  | 0, _, _ => none
  | fuel + 1, depth, cs =>
    match cs with
    | '"' :: rest =>
      (scanString rest).map fun (s, rest) =>
        (match s with
          | some s => .string s
          | none => .unreadable, rest)
    | '[' :: rest =>
      match skipBlanks rest with
      | ']' :: rest => some (nested depth (.array []), rest)
      | rest =>
        match scanItems fuel (depth + 1) rest with
        | some (items, rest) => some (nested depth (.array items), rest)
        | none => none
    | '{' :: rest =>
      match skipBlanks rest with
      | '}' :: rest => some (nested depth (.object []), rest)
      | rest =>
        match scanMembers fuel (depth + 1) rest with
        | some (members, rest) => some (nested depth (.object members), rest)
        | none => none
    | cs => scanAtom cs

/-- Reads the items of an array and its closing bracket; a first item is due. -/
def scanItems : (fuel : Nat) → (depth : Nat) → List Char → Option (List Term × List Char)
  | 0, _, _ => none
  | fuel + 1, depth, cs =>
    match scanValue fuel depth cs with
    | none => none
    | some (item, rest) =>
      match skipBlanks rest with
      | ']' :: rest => some ([item], rest)
      | ',' :: rest =>
        match scanItems fuel depth (skipBlanks rest) with
        | some (items, rest) => some (item :: items, rest)
        | none => none
      | _ => none

/-- Reads the members of an object and its closing brace; a first member is due. -/
def scanMembers : (fuel : Nat) → (depth : Nat) → List Char →
    Option (List (Option String × Term) × List Char)
  | 0, _, _ => none
  | fuel + 1, depth, cs =>
    match cs with
    | '"' :: rest =>
      match scanString rest with
      | none => none
      | some (key, rest) =>
        match skipBlanks rest with
        | ':' :: rest =>
          match scanValue fuel depth (skipBlanks rest) with
          | none => none
          | some (value, rest) =>
            match skipBlanks rest with
            | '}' :: rest => some ([(key, value)], rest)
            | ',' :: rest =>
              match scanMembers fuel depth (skipBlanks rest) with
              | some (members, rest) => some ((key, value) :: members, rest)
              | none => none
            | _ => none
        | _ => none
    | _ => none

end

/-- The term that a whole text writes, blanks around it allowed. -/
def parseChars? (cs : List Char) : Option Term :=
  match scanValue (2 * cs.length + 2) 0 (skipBlanks cs) with
  | some (t, rest) => if skipBlanks rest = [] then some t else none
  | none => none

/-- The term that a text writes. -/
def parse? (text : String) : Option Term := parseChars? text.toList

mutual

/-- The value of a term: of a repeated member the last value stands, in the first one's place. -/
def json? : Term → Option Json
  | .null => some .null
  | .bool b => some (.bool b)
  | .number n => some (.number n)
  | .string s => some (.string s)
  | .array items =>
    match jsonItems? items with
    | some xs => some (.array xs)
    | none => none
  | .object members =>
    match jsonMembers? members with
    | some ms => some (.object (Entries.insertAll [] ms))
    | none => none
  | .unreadable => none

/-- The values of the items. -/
def jsonItems? : List Term → Option (List Json)
  | [] => some []
  | t :: ts =>
    match json? t, jsonItems? ts with
    | some x, some xs => some (x :: xs)
    | _, _ => none

/-- The members with their values, repetitions included. -/
def jsonMembers? : List (Option String × Term) → Option (List (String × Json))
  | [] => some []
  | (key, t) :: ts =>
    match key, json? t, jsonMembers? ts with
    | some k, some x, some ms => some ((k, x) :: ms)
    | _, _, _ => none

end

end Term

namespace Json

mutual

/-- The term that says a value. -/
def toTerm : Json → Term
  | .null => .null
  | .bool b => .bool b
  | .number n => .number n
  | .string s => .string s
  | .array items => .array (toTerms items)
  | .object members => .object (toMembers members)

/-- The terms of the items. -/
def toTerms : List Json → List Term
  | [] => []
  | x :: xs => toTerm x :: toTerms xs

/-- The members as written. -/
def toMembers : List (String × Json) → List (Option String × Term)
  | [] => []
  | (key, value) :: ms => (some key, toTerm value) :: toMembers ms

end

/-- The value that a text writes. -/
def parse? (text : String) : Option Json := (Term.parse? text).bind Term.json?

end Json

end ChangeAudit
