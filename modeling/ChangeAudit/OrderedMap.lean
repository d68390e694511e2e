/-!
# Maps that remember the order of first insertion

`Entries` holds the operations on plain lists of pairs: `insert` replaces the value of a known key
in place and appends a new key, `swapErase` fills the hole of a removed pair with the last pair.
`OrderedMap` packages a list whose keys are distinct; every operation keeps them so
(`nodup_keys_insert`). The view of a map is `get?` for lookup and `keys` for order.
-/

namespace ChangeAudit

namespace Entries

variable {κ α β : Type} [DecidableEq κ]

/-- The keys, in order. -/
def keys (es : List (κ × α)) : List κ :=
  es.map Prod.fst

/-- The value of the first pair with this key. -/
def get? : List (κ × α) → κ → Option α
  | [], _ => none
  | (k, v) :: es, key => if k = key then some v else get? es key

/-- Gives a key a value: in place when the key is known, at the end otherwise. -/
def insert : List (κ × α) → κ → α → List (κ × α)
  | [], key, value => [(key, value)]
  | (k, v) :: es, key, value =>
    if k = key then (k, value) :: es else (k, v) :: insert es key value

/-- Inserts pairs one after the other: the last value of a key wins, at its first position. -/
def insertAll (es : List (κ × α)) (pairs : List (κ × α)) : List (κ × α) :=
  pairs.foldl (fun acc p => insert acc p.1 p.2) es

/-- Removes a key; the last pair moves into its place. -/
def swapErase : List (κ × α) → κ → List (κ × α)
  | [], _ => []
  | (k, v) :: es, key =>
    if k = key then
      match es.getLast? with
      | none => []
      | some last => last :: es.dropLast
    else (k, v) :: swapErase es key

theorem keys_insert (es : List (κ × α)) (key : κ) (value : α) :
    keys (insert es key value) = if key ∈ keys es then keys es else keys es ++ [key] := by
  induction es with
  | nil => simp [insert, keys]
  | cons e es ih =>
    obtain ⟨k, v⟩ := e
    simp only [keys] at ih ⊢
    by_cases h : k = key
    · simp [insert, h]
    · have h' : key ≠ k := fun e => h e.symm
      simp only [insert, h, if_false, List.map_cons, List.mem_cons, h', false_or, ih]
      by_cases hm : key ∈ es.map Prod.fst <;> simp [hm]

theorem nodup_keys_insert {es : List (κ × α)} (h : (keys es).Nodup) (key : κ) (value : α) :
    (keys (insert es key value)).Nodup := by
  rw [keys_insert]
  split
  · exact h
  · rename_i hk
    exact List.nodup_append.2 ⟨h, by simp, by
      intro a ha b hb e
      simp only [List.mem_singleton] at hb
      exact hk (hb ▸ e ▸ ha)⟩

theorem nodup_keys_insertAll {es : List (κ × α)} (h : (keys es).Nodup) (pairs : List (κ × α)) :
    (keys (insertAll es pairs)).Nodup := by
  induction pairs generalizing es with
  | nil => exact h
  | cons p pairs ih => exact ih (nodup_keys_insert h p.1 p.2)

theorem get?_insert (es : List (κ × α)) (key : κ) (value : α) (other : κ) :
    get? (insert es key value) other = if key = other then some value else get? es other := by
  induction es with
  | nil => simp [insert, get?]
  | cons e es ih =>
    obtain ⟨k, v⟩ := e
    by_cases h : k = key
    · by_cases h' : key = other <;> simp [insert, get?, h, h']
    · by_cases h' : k = other
      · have : ¬ key = other := fun e => h (h'.trans e.symm)
        have hk : ¬ other = key := fun e => this e.symm
        simp [insert, get?, h', this, hk]
      · simp [insert, get?, h, h', ih]

end Entries

/-- Pairs with distinct keys, in the order in which the keys were first inserted. -/
structure OrderedMap (κ α : Type) where
  entries : List (κ × α)
  nodup : (Entries.keys entries).Nodup

namespace OrderedMap

variable {κ α β : Type}

theorem ext {m n : OrderedMap κ α} (h : m.entries = n.entries) : m = n := by
  cases m; cases n; simp_all

instance [DecidableEq κ] [DecidableEq α] : DecidableEq (OrderedMap κ α) := fun m n =>
  if h : m.entries = n.entries then .isTrue (ext h) else .isFalse fun e => h (e ▸ rfl)

/-- The map without entries. -/
def empty : OrderedMap κ α := ⟨[], by simp [Entries.keys]⟩

instance : Inhabited (OrderedMap κ α) := ⟨empty⟩

/-- The keys, in order of first insertion. -/
def keys (m : OrderedMap κ α) : List κ := Entries.keys m.entries

/-- The values, in the order of their keys. -/
def values (m : OrderedMap κ α) : List α := m.entries.map Prod.snd

/-- The number of keys. -/
def size (m : OrderedMap κ α) : Nat := m.entries.length

variable [DecidableEq κ]

/-- The value of a key. -/
def get? (m : OrderedMap κ α) (key : κ) : Option α := Entries.get? m.entries key

/-- Whether a key has a value. -/
def contains (m : OrderedMap κ α) (key : κ) : Bool := (m.get? key).isSome

/-- Gives a key a value, keeping its position when it has one. -/
def insert (m : OrderedMap κ α) (key : κ) (value : α) : OrderedMap κ α :=
  ⟨Entries.insert m.entries key value, Entries.nodup_keys_insert m.nodup key value⟩

/-- Inserts pairs one after the other. -/
def insertAll (m : OrderedMap κ α) (pairs : List (κ × α)) : OrderedMap κ α :=
  ⟨Entries.insertAll m.entries pairs, Entries.nodup_keys_insertAll m.nodup pairs⟩

/-- The map of a list of pairs: the last value of a key wins, at its first position. -/
def ofList (pairs : List (κ × α)) : OrderedMap κ α := empty.insertAll pairs

/-- Removes a key, keeping the order of the others. -/
def erase (m : OrderedMap κ α) (key : κ) : OrderedMap κ α :=
  ⟨m.entries.filter fun e => e.1 ≠ key,
    (m.nodup.sublist ((List.filter_sublist).map Prod.fst))⟩

theorem get?_insert (m : OrderedMap κ α) (key : κ) (value : α) (other : κ) :
    (m.insert key value).get? other = if key = other then some value else m.get? other :=
  Entries.get?_insert m.entries key value other

end OrderedMap

end ChangeAudit
