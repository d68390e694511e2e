import ChangeAudit.Text.Blank
import Mathlib.Data.List.DropRight

/-!
# Pieces and lines of a text

Cutting a text at a separator and putting the separator between texts without it undo each other
(`intercalate_pieces`, `pieces_intercalate`).

A line that holds no line feed is cut off at the first one after it, whatever follows
(`lines_append`). So a text made of such lines, each with its line feed, has just these lines
(`lines_flatMap`), as long as none ends in a carriage return, which would belong to the line break.
A text put behind another one changes no line of that but the last (`exists_lines_append`).
-/

namespace ChangeAudit.Text

theorem pieces_ne_nil (sep : Char) (cs : List Char) : pieces sep cs ≠ [] := by
  cases cs with
  | nil => simp [pieces]
  | cons c cs =>
    rw [pieces]
    split
    · simp
    · split <;> simp

theorem pieces_append {sep : Char} {piece : List Char} (whole : sep ∉ piece) (rest : List Char) :
    pieces sep (piece ++ sep :: rest) = piece :: pieces sep rest := by
  induction piece with
  | nil => simp [pieces]
  | cons c piece ih =>
    simp only [List.mem_cons, not_or] at whole
    rw [List.cons_append, pieces, if_neg (Ne.symm whole.1), ih whole.2]

theorem pieces_of_not_mem {sep : Char} {piece : List Char} (whole : sep ∉ piece) :
    pieces sep piece = [piece] := by
  induction piece with
  | nil => rfl
  | cons c piece ih =>
    simp only [List.mem_cons, not_or] at whole
    rw [pieces, if_neg (Ne.symm whole.1), ih whole.2]

theorem not_mem_of_mem_pieces {sep : Char} {cs piece : List Char} (h : piece ∈ pieces sep cs) :
    sep ∉ piece := by
  induction cs generalizing piece with
  | nil =>
    rw [pieces, List.mem_singleton] at h
    simp [h]
  | cons c cs ih =>
    rw [pieces] at h
    split at h
    · rcases List.mem_cons.1 h with rfl | later
      · exact List.not_mem_nil
      · exact ih later
    · rename_i other
      split at h
      · rw [List.mem_singleton] at h
        simp [h, Ne.symm other]
      · rename_i first more cut
        rcases List.mem_cons.1 h with rfl | later
        · simp [Ne.symm other, ih (cut ▸ List.mem_cons_self)]
        · exact ih (cut ▸ List.mem_cons_of_mem first later)

/-- The pieces with the separators between them are the text. -/
theorem intercalate_pieces (sep : Char) (cs : List Char) :
    [sep].intercalate (pieces sep cs) = cs := by
  induction cs with
  | nil => rfl
  | cons c cs ih =>
    rw [pieces]
    cases cut : pieces sep cs with
    | nil => exact absurd cut (pieces_ne_nil sep cs)
    | cons first more =>
      rw [cut] at ih
      split
      · rename_i same
        rw [List.intercalate_cons_cons, ih, same]
        rfl
      · cases more with
        | nil =>
          rw [List.intercalate_singleton] at ih ⊢
          rw [ih]
        | cons second more =>
          rw [List.intercalate_cons_cons] at ih ⊢
          rw [← ih]
          rfl

/-- Texts without the separator are the pieces of what they make with separators between them. -/
theorem pieces_intercalate {sep : Char} {ps : List (List Char)} (some : ps ≠ [])
    (whole : ∀ p ∈ ps, sep ∉ p) : pieces sep ([sep].intercalate ps) = ps := by
  induction ps with
  | nil => exact absurd rfl some
  | cons first more ih =>
    have start := whole first List.mem_cons_self
    cases more with
    | nil => rw [List.intercalate_singleton, pieces_of_not_mem start]
    | cons second more =>
      rw [List.intercalate_cons_cons, List.append_assoc, List.singleton_append,
        pieces_append start,
        ih (List.cons_ne_nil _ _) fun p member => whole p (List.mem_cons_of_mem first member)]

/-! ## Lines -/

theorem lines_append {line : List Char} (whole : '\n' ∉ line) (rest : List Char) :
    lines (line ++ '\n' :: rest) = dropReturn line :: lines rest := by
  rw [lines, pieces_append whole, lines]
  cases later : pieces '\n' rest with
  | nil => exact absurd later (pieces_ne_nil _ _)
  | cons piece more => rfl

theorem dropReturn_of_getLast? {line : List Char} (h : line.getLast? ≠ some '\r') :
    dropReturn line = line := if_neg h

/-- The lines of a text that writes lines. -/
theorem lines_flatMap {ls : List (List Char)} (whole : ∀ l ∈ ls, '\n' ∉ l)
    (plain : ∀ l ∈ ls, l.getLast? ≠ some '\r') : lines (ls.flatMap fun l => l ++ ['\n']) = ls := by
  induction ls with
  | nil => rfl
  | cons l ls ih =>
    have rest := ih (fun l' member => whole l' (List.mem_cons_of_mem l member))
      (fun l' member => plain l' (List.mem_cons_of_mem l member))
    rw [List.flatMap_cons, List.append_assoc, List.singleton_append,
      lines_append (whole l List.mem_cons_self), rest,
      dropReturn_of_getLast? (plain l List.mem_cons_self)]

theorem lines_of_not_mem {line : List Char} (whole : '\n' ∉ line) :
    lines line = if line = [] then [] else [line] := by
  rw [lines, pieces_of_not_mem whole]
  rfl

/-! ## The last line -/

theorem pieces_append_cons (sep : Char) (cs rest : List Char) :
    pieces sep (cs ++ sep :: rest) = pieces sep cs ++ pieces sep rest := by
  induction cs with
  | nil => simp [pieces]
  | cons c cs ih =>
    rw [List.cons_append, pieces, pieces, ih]
    split
    · rfl
    · cases cut : pieces sep cs with
      | nil => exact absurd cut (pieces_ne_nil sep cs)
      | cons first more => rfl

theorem endLines_append {after : List (List Char)} (some : after ≠ []) (before : List (List Char)) :
    endLines (before ++ after) = before.map dropReturn ++ endLines after := by
  induction before with
  | nil => rfl
  | cons piece before ih =>
    rw [List.map_cons, List.cons_append, List.cons_append, ← ih]
    cases later : before ++ after with
    | nil => exact absurd (List.append_eq_nil_iff.1 later).2 some
    | cons next more => rfl

/-- The lines before a line feed, and those after it. -/
theorem lines_append_cons (cs rest : List Char) :
    lines (cs ++ '\n' :: rest) = (pieces '\n' cs).map dropReturn ++ lines rest := by
  rw [lines, pieces_append_cons, endLines_append (pieces_ne_nil _ _)]
  rfl

/-- What stands after the last line feed. -/
def lastLine (cs : List Char) : List Char := cs.rtakeWhile (· ≠ '\n')

theorem not_mem_lastLine (cs : List Char) : '\n' ∉ lastLine cs := by
  intro feed
  rw [lastLine] at feed
  simpa using List.mem_rtakeWhile_imp feed

theorem lastLine_of_not_mem {line : List Char} (whole : '\n' ∉ line) : lastLine line = line := by
  rw [lastLine, List.rtakeWhile_eq_self_iff]
  intro c member
  exact decide_eq_true fun feed => whole (feed ▸ member)

theorem lastLine_append_singleton (cs : List Char) : lastLine (cs ++ ['\n']) = [] := by
  rw [lastLine, List.rtakeWhile_concat, if_neg (by decide)]

/-- The lines before the last one are the same whatever is put behind the text. -/
theorem exists_lines_append (cs : List Char) :
    ∃ before, ∀ more, lines (cs ++ more) = before ++ lines (lastLine cs ++ more) := by
  have whole : cs.rdropWhile (· ≠ '\n') ++ lastLine cs = cs := List.rdropWhile_append_rtakeWhile
  by_cases none : cs.rdropWhile (· ≠ '\n') = []
  · rw [none, List.nil_append] at whole
    exact ⟨[], fun more => by rw [whole, List.nil_append]⟩
  · have feed : (cs.rdropWhile (· ≠ '\n')).getLast none = '\n' := by
      simpa using List.rdropWhile_last_not _ _ none
    have start := List.dropLast_append_getLast none
    rw [feed] at start
    refine ⟨(pieces '\n' (cs.rdropWhile (· ≠ '\n')).dropLast).map dropReturn, fun more => ?_⟩
    rw [← lines_append_cons, ← List.singleton_append, ← List.append_assoc, start,
      ← List.append_assoc, whole]

end ChangeAudit.Text
