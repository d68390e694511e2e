/-!
# Blank characters and lines

`isBlank` is the Unicode property White_Space; it holds of every character that core counts as
whitespace (`isBlank_of_isWhitespace`). `lines` cuts a text at its line feeds: the piece after the
last one counts only if it is not empty, and a carriage return before a line feed belongs to the
line break.
-/

namespace ChangeAudit.Text

/-- The Unicode property White_Space. -/
def isBlank (c : Char) : Bool :=
  let n := c.toNat
  (0x09 ≤ n && n ≤ 0x0D) || n == 0x20 || n == 0x85 || n == 0xA0 || n == 0x1680
    || (0x2000 ≤ n && n ≤ 0x200A) || n == 0x2028 || n == 0x2029 || n == 0x202F || n == 0x205F
    || n == 0x3000

theorem isBlank_of_isWhitespace {c : Char} (h : c.isWhitespace = true) : isBlank c = true := by
  simp only [Char.isWhitespace, Bool.or_eq_true, decide_eq_true_eq] at h
  rcases h with ((rfl | rfl) | rfl) | rfl <;> decide

/-- Drops the blank characters in front. -/
def skipBlank (cs : List Char) : List Char := cs.dropWhile isBlank

/-- Whether a line holds nothing but blank characters. -/
def isBlankLine (cs : List Char) : Bool := cs.all isBlank

/-- The pieces between the occurrences of a separator, at least one. -/
def pieces (sep : Char) : List Char → List (List Char)
  | [] => [[]]
  | c :: cs =>
    if c = sep then [] :: pieces sep cs
    else
      match pieces sep cs with
      | [] => [[c]]
      | piece :: rest => (c :: piece) :: rest

/-- A line without the carriage return at its end. -/
def dropReturn (line : List Char) : List Char :=
  if line.getLast? = some '\r' then line.dropLast else line

/-- The lines of a list of pieces: every piece but the last ended in a line feed. -/
def endLines : List (List Char) → List (List Char)
  | [] => []
  | [last] => if last = [] then [] else [last]
  | piece :: pieces => dropReturn piece :: endLines pieces

/-- The lines of a text. -/
def lines (cs : List Char) : List (List Char) := endLines (pieces '\n' cs)

end ChangeAudit.Text
