import ChangeAudit.Json.Printer
import ChangeAudit.Json.Term

/-!
# Quoted strings are read back

`Term.scanString` reads a quoted string as the string it quotes, whatever characters that has
(`scanString_quote`): each escape is undone as one character, and neither a quote nor a backslash
inside can end the string early. No character below U+0020 is left in the quoted form
(`le_toNat_of_mem_quote`), so a string never breaks a line.
-/

namespace ChangeAudit

open Text (hexDigit hexValue?)

theorem Text.hexValue?_hexDigit {n : Nat} (small : n < 16) : hexValue? (hexDigit n) = some n := by
  revert n
  decide

namespace Json

/-- The three forms of an escaped character: a letter that names it, its code, or itself. -/
inductive Escaped (c : Char) : Prop where
  | letter (e : Char) (named : Term.unescape? e = some c) (visible : 32 ≤ e.toNat) (code : e ≠ 'u')
      (written : escape c = ['\\', e])
  | code (low : c.toNat < 32)
      (written : escape c = ['\\', 'u', '0', '0', hexDigit (c.toNat / 16), hexDigit (c.toNat % 16)])
  | plain (high : 32 ≤ c.toNat) (quote : c ≠ '"') (backslash : c ≠ '\\') (written : escape c = [c])

theorem escaped (c : Char) : Escaped c := by
  by_cases named : c ∈ ['"', '\\', '\n', '\r', '\t', '\x08', '\x0c']
  · simp only [List.mem_cons, List.not_mem_nil, or_false] at named
    rcases named with rfl | rfl | rfl | rfl | rfl | rfl | rfl
    · exact .letter '"' rfl (by decide) (by decide) rfl
    · exact .letter '\\' rfl (by decide) (by decide) rfl
    · exact .letter 'n' rfl (by decide) (by decide) rfl
    · exact .letter 'r' rfl (by decide) (by decide) rfl
    · exact .letter 't' rfl (by decide) (by decide) rfl
    · exact .letter 'b' rfl (by decide) (by decide) rfl
    · exact .letter 'f' rfl (by decide) (by decide) rfl
  · simp only [List.mem_cons, List.not_mem_nil, or_false, not_or] at named
    by_cases low : c.toNat < 32
    · exact .code low (by simp [escape, named, low])
    · exact .plain (by omega) named.1 named.2.1 (by simp [escape, named, low])

end Json

namespace Term

theorem hexUnit?_low {n : Nat} (low : n < 32) :
    hexUnit? '0' '0' (hexDigit (n / 16)) (hexDigit (n % 16)) = some n := by
  have zero : hexValue? '0' = some 0 := by decide
  simp only [hexUnit?, zero, Text.hexValue?_hexDigit (show n / 16 < 16 by omega),
    Text.hexValue?_hexDigit (show n % 16 < 16 by omega), Option.bind_eq_bind, Option.bind_some,
    Option.some.injEq]
  omega

theorem Piece.ofUnit_low {c : Char} (low : c.toNat < 32) : ofUnit c.toNat = .char c := by
  rw [ofUnit, if_neg (by omega), Char.ofNat_toNat]

/-- The escape of a character is read as one piece, that character. -/
theorem scanPieces_escape (c : Char) (cs : List Char) :
    scanPieces (Json.escape c ++ cs) =
      (scanPieces cs).map fun (ps, rest) => (.char c :: ps, rest) := by
  cases Json.escaped c with
  | letter e named _ code written =>
    rw [written, List.cons_append, List.cons_append, List.nil_append, scanPieces]
    · rw [named]
      cases scanPieces cs <;> rfl
    · rintro a b c d rest ⟨⟩
      exact absurd rfl code
  | code low written =>
    simp only [written, List.cons_append, List.nil_append, scanPieces, hexUnit?_low low]
    cases scanPieces cs with
    | none => rfl
    | some found => exact congrArg (fun p => some (p :: found.1, found.2)) (Piece.ofUnit_low low)
  | plain high quote backslash written =>
    rw [written, List.cons_append, List.nil_append, scanPieces]
    · rw [if_neg (by simp [backslash]; omega)]
      cases scanPieces cs <;> rfl
    · exact quote
    · rintro a b c d rest rfl
      exact absurd rfl backslash
    · rintro e rest rfl
      exact absurd rfl backslash

theorem scanPieces_quoted (cs rest : List Char) :
    scanPieces (cs.flatMap Json.escape ++ '"' :: rest) = some (cs.map .char, rest) := by
  induction cs with
  | nil => rfl
  | cons c cs ih =>
    rw [List.flatMap_cons, List.append_assoc, scanPieces_escape, ih]
    rfl

theorem joinPieces?_chars (cs : List Char) : joinPieces? (cs.map .char) = some cs := by
  induction cs with
  | nil => rfl
  | cons c cs ih => rw [List.map_cons, joinPieces?, ih, Option.map_some]

/-- A quoted string is read as the string, up to its closing quote. -/
theorem scanString_quote (s : String) (rest : List Char) :
    scanString (s.toList.flatMap Json.escape ++ '"' :: rest) = some (some s, rest) := by
  simp only [scanString, scanPieces_quoted, joinPieces?_chars, Option.map_some, String.ofList_toList]

end Term

namespace Json

theorem le_toNat_hexDigit {n : Nat} (small : n < 16) : 32 ≤ (hexDigit n).toNat := by
  revert n
  decide

theorem le_toNat_of_mem_escape {c d : Char} (h : d ∈ escape c) : 32 ≤ d.toNat := by
  cases escaped c with
  | letter e _ visible _ written =>
    simp only [written, List.mem_cons, List.not_mem_nil, or_false] at h
    rcases h with rfl | rfl
    · decide
    · exact visible
  | code low written =>
    simp only [written, List.mem_cons, List.not_mem_nil, or_false] at h
    rcases h with rfl | rfl | rfl | rfl | rfl | rfl
    · decide
    · decide
    · decide
    · decide
    · exact le_toNat_hexDigit (by omega)
    · exact le_toNat_hexDigit (by omega)
  | plain high _ _ written =>
    rw [written, List.mem_singleton] at h
    rwa [h]

theorem le_toNat_of_mem_quote {cs : List Char} {d : Char} (h : d ∈ quote cs) : 32 ≤ d.toNat := by
  simp only [quote, List.mem_cons, List.mem_append, List.mem_flatMap, List.not_mem_nil,
    or_false] at h
  rcases h with rfl | ⟨c, -, member⟩ | rfl
  · decide
  · exact le_toNat_of_mem_escape member
  · decide

end Json

end ChangeAudit
