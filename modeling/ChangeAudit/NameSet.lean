/-!
# Sets of names

A `NameSet` lists its names in increasing order of their characters, each once; `insert` keeps the
order (`sorted_insertName`).
-/

namespace ChangeAudit

/-- Puts a name into an increasing list. -/
def insertName (name : String) : List String → List String
  | [] => [name]
  | x :: xs =>
    if name < x then name :: x :: xs
    else if name = x then x :: xs
    else x :: insertName name xs

theorem mem_insertName {name x : String} {xs : List String} :
    x ∈ insertName name xs ↔ x = name ∨ x ∈ xs := by
  induction xs with
  | nil => simp [insertName]
  | cons y ys ih =>
    simp only [insertName]
    split
    · simp
    · split
      · rename_i h; subst h; simp
      · simp only [List.mem_cons, ih]
        constructor
        · rintro (h | h | h) <;> simp [h]
        · rintro (h | h | h) <;> simp [h]

theorem sorted_insertName {xs : List String} (h : xs.Pairwise (· < ·)) (name : String) :
    (insertName name xs).Pairwise (· < ·) := by
  induction xs with
  | nil => simp [insertName]
  | cons y ys ih =>
    simp only [insertName]
    have hy := List.pairwise_cons.1 h
    split
    · rename_i hlt
      refine List.pairwise_cons.2 ⟨?_, h⟩
      intro z hz
      rcases List.mem_cons.1 hz with rfl | hz
      · exact hlt
      · exact String.lt_trans hlt (hy.1 z hz)
    · split
      · exact h
      · rename_i hlt hne
        refine List.pairwise_cons.2 ⟨?_, ih hy.2⟩
        intro z hz
        rcases mem_insertName.1 hz with rfl | hz
        · have hle : y ≤ z := String.not_lt.1 hlt
          by_cases hz' : y < z
          · exact hz'
          · exact absurd (String.le_antisymm (String.not_lt.1 hz') hle) hne
        · exact hy.1 z hz

theorem insertName_of_forall_lt {name : String} {xs : List String} (h : ∀ x ∈ xs, x < name) :
    insertName name xs = xs ++ [name] := by
  induction xs with
  | nil => rfl
  | cons x xs ih =>
    have less := h x List.mem_cons_self
    have later := ih fun y member => h y (List.mem_cons_of_mem x member)
    rw [insertName, if_neg (String.lt_asymm less), if_neg (String.ne_of_lt less).symm, later]
    rfl

/-- A set of names. -/
structure NameSet where
  names : List String
  sorted : names.Pairwise (· < ·)

namespace NameSet

theorem ext {a b : NameSet} (h : a.names = b.names) : a = b := by
  cases a; cases b; simp_all

instance : DecidableEq NameSet := fun a b =>
  if h : a.names = b.names then .isTrue (ext h) else .isFalse fun e => h (e ▸ rfl)

/-- The set without names. -/
def empty : NameSet := ⟨[], .nil⟩

/-- The set with one more name. -/
def insert (s : NameSet) (name : String) : NameSet :=
  ⟨insertName name s.names, sorted_insertName s.sorted name⟩

/-- The set of the names in a list. -/
def ofList (names : List String) : NameSet := names.foldl insert empty

theorem names_foldl_insert {s : NameSet} {xs : List String}
    (sorted : (s.names ++ xs).Pairwise (· < ·)) : (xs.foldl insert s).names = s.names ++ xs := by
  induction xs generalizing s with
  | nil => exact (List.append_nil s.names).symm
  | cons x xs ih =>
    have less : ∀ y ∈ s.names, y < x := fun y member =>
      (List.pairwise_append.1 sorted).2.2 y member x List.mem_cons_self
    have next : (s.insert x).names = s.names ++ [x] := insertName_of_forall_lt less
    rw [List.append_cons, ← next] at sorted
    rw [List.foldl_cons, ih sorted, next, ← List.append_cons]

/-- A set is made of its own names. -/
theorem ofList_names (s : NameSet) : ofList s.names = s :=
  ext (names_foldl_insert (s := empty) s.sorted)

/-- Whether a name is in the set. -/
def contains (s : NameSet) (name : String) : Bool := s.names.contains name

end NameSet

end ChangeAudit
