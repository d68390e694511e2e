import ChangeAudit.OrderedMap

/-!
# Ordered maps entry by entry

Writing or erasing a key leaves every other key as it was, and what the values of a map hold
together splits into what the value of one key holds and what the others hold (`count_values`).
-/

namespace ChangeAudit

variable {κ α β : Type} [DecidableEq κ]

namespace Entries

omit [DecidableEq κ] in
theorem keys_append (es fs : List (κ × α)) : keys (es ++ fs) = keys es ++ keys fs :=
  List.map_append

theorem get?_append (es others : List (κ × α)) (key : κ) :
    get? (es ++ others) key = (get? es key).or (get? others key) := by
  induction es with
  | nil => rfl
  | cons e es ih =>
    obtain ⟨k, v⟩ := e
    rw [List.cons_append, get?, get?, ih]
    split <;> rfl

omit [DecidableEq κ] in
theorem keys_map (f : α → β) (es : List (κ × α)) :
    keys (es.map fun e => (e.1, f e.2)) = keys es := by
  rw [keys, List.map_map]
  rfl

theorem get?_map (f : α → β) (es : List (κ × α)) (key : κ) :
    get? (es.map fun e => (e.1, f e.2)) key = (get? es key).map f := by
  induction es with
  | nil => rfl
  | cons e es ih =>
    obtain ⟨k, v⟩ := e
    rw [List.map_cons, get?, get?, ih]
    split <;> rfl

/-- Lookup among the entries whose keys are kept. -/
theorem get?_filter (keep : κ → Bool) (es : List (κ × α)) (key : κ) :
    get? (es.filter fun e => keep e.1) key = if keep key then get? es key else none := by
  induction es with
  | nil => simp [get?]
  | cons e es ih =>
    obtain ⟨k, v⟩ := e
    rw [List.filter_cons, get?]
    by_cases same : k = key
    · subst same
      by_cases kept : keep k = true
      · simp [kept, get?]
      · simp [kept, ih]
    · by_cases kept : keep k = true
      · simp only [kept, if_true, get?, same, if_false, ih]
      · simp only [kept, Bool.false_eq_true, same, if_false, ih]

theorem get?_filter_ne (es : List (κ × α)) (key other : κ) :
    get? (es.filter fun e => e.1 ≠ key) other = if other = key then none else get? es other := by
  rw [get?_filter (fun k => decide (k ≠ key)) es other]
  by_cases same : other = key <;> simp [same]

theorem mem_of_get? {es : List (κ × α)} {key : κ} {value : α} (h : get? es key = some value) :
    (key, value) ∈ es := by
  induction es with
  | nil => nomatch h
  | cons e es ih =>
    obtain ⟨k, v⟩ := e
    by_cases same : k = key
    · simp only [get?, same, if_true, Option.some.injEq] at h
      simp [same, h]
    · simp only [get?, same, if_false] at h
      exact List.mem_cons_of_mem _ (ih h)

/-- With distinct keys, every entry is found. -/
theorem get?_of_mem {es : List (κ × α)} (distinct : (keys es).Nodup) {key : κ} {value : α}
    (member : (key, value) ∈ es) : get? es key = some value := by
  induction es with
  | nil => nomatch member
  | cons e es ih =>
    obtain ⟨k, v⟩ := e
    obtain ⟨fresh, distinct⟩ := List.nodup_cons.1 distinct
    rcases List.mem_cons.1 member with same | later
    · cases same
      simp [get?]
    · have other : k ≠ key := by
        rintro rfl
        exact fresh (List.mem_map.2 ⟨_, later, rfl⟩)
      simp only [get?, other, if_false]
      exact ih distinct later

/-- With distinct keys, lookup does not depend on the order of the entries. -/
theorem get?_of_perm {es fs : List (κ × α)} (distinct : (keys es).Nodup) (same : es.Perm fs)
    (key : κ) : get? es key = get? fs key := by
  have distinct' : (keys fs).Nodup := (same.map Prod.fst).nodup_iff.1 distinct
  apply Option.ext
  intro value
  constructor
  · intro found
    exact get?_of_mem distinct' (same.mem_iff.1 (mem_of_get? found))
  · intro found
    exact get?_of_mem distinct (same.mem_iff.2 (mem_of_get? found))

/-- An entry is written among those whose keys are kept, if its key is. -/
theorem filter_insert (keep : κ → Bool) (es : List (κ × α)) (key : κ) (value : α) :
    (insert es key value).filter (fun e => keep e.1) =
      if keep key then insert (es.filter fun e => keep e.1) key value
      else es.filter fun e => keep e.1 := by
  induction es with
  | nil => cases kept : keep key <;> simp [insert, kept]
  | cons e es ih =>
    obtain ⟨k, v⟩ := e
    by_cases same : k = key
    · subst same
      cases kept : keep k <;> simp [insert, kept]
    · rw [insert, if_neg same, List.filter_cons, List.filter_cons, ih]
      cases keep k <;> cases keep key <;> simp [insert, same]

theorem filter_insertAll (keep : κ → Bool) (es pairs : List (κ × α)) :
    (insertAll es pairs).filter (fun e => keep e.1) =
      insertAll (es.filter fun e => keep e.1) (pairs.filter fun e => keep e.1) := by
  induction pairs generalizing es with
  | nil => rfl
  | cons p pairs ih =>
    rw [insertAll, List.foldl_cons, ← insertAll, ih, filter_insert, List.filter_cons]
    cases keep p.1 <;> rfl

theorem filter_ne_insert (es : List (κ × α)) (key : κ) (value : α) :
    (insert es key value).filter (fun e => e.1 ≠ key) = es.filter fun e => e.1 ≠ key := by
  rw [filter_insert (fun k => decide (k ≠ key))]
  simp

theorem insert_of_get? {es : List (κ × α)} {key : κ} {value : α} (h : get? es key = some value) :
    insert es key value = es := by
  induction es with
  | nil => nomatch h
  | cons e es ih =>
    obtain ⟨k, v⟩ := e
    by_cases same : k = key
    · simp only [get?, same, if_true, Option.some.injEq] at h
      simp [insert, same, h]
    · simp only [get?, same, if_false] at h
      simp only [insert, same, if_false, ih h]

theorem isSome_get?_iff {es : List (κ × α)} {key : κ} :
    (get? es key).isSome = true ↔ key ∈ keys es := by
  induction es with
  | nil => simp [get?, keys]
  | cons e es ih =>
    obtain ⟨k, v⟩ := e
    simp only [keys] at ih
    by_cases same : k = key
    · simp [get?, keys, same]
    · simp only [get?, same, if_false, ih, keys, List.map_cons, List.mem_cons, Ne.symm same,
        false_or]

theorem get?_eq_none_iff {es : List (κ × α)} {key : κ} :
    get? es key = none ↔ key ∉ keys es := by
  rw [← isSome_get?_iff, Option.not_isSome_iff_eq_none]

theorem get?_eq_none_of_not_mem {es : List (κ × α)} {key : κ} (h : key ∉ keys es) :
    get? es key = none :=
  get?_eq_none_iff.2 h

theorem insert_of_not_mem {es : List (κ × α)} {key : κ} (fresh : key ∉ keys es) (value : α) :
    insert es key value = es ++ [(key, value)] := by
  induction es with
  | nil => rfl
  | cons e es ih =>
    obtain ⟨k, v⟩ := e
    simp only [keys, List.map_cons, List.mem_cons, not_or] at fresh
    rw [insert, if_neg (Ne.symm fresh.1), ih fresh.2]
    rfl

/-- Writing a known key changes what is mapped at its own place only. -/
theorem map_insert_of_get? {f g : κ × α → β} {es : List (κ × α)} (distinct : (keys es).Nodup)
    {key : κ} {old value : α} (known : get? es key = some old)
    (here : f (key, value) = g (key, old)) (elsewhere : ∀ e ∈ es, e.1 ≠ key → f e = g e) :
    (insert es key value).map f = es.map g := by
  induction es with
  | nil => nomatch known
  | cons e es ih =>
    obtain ⟨k, v⟩ := e
    obtain ⟨fresh, distinct⟩ := List.nodup_cons.1 distinct
    obtain ⟨first, others⟩ := List.forall_mem_cons.1 elsewhere
    by_cases same : k = key
    · subst same
      rw [get?, if_pos rfl, Option.some.injEq] at known
      subst known
      rw [insert, if_pos rfl, List.map_cons, List.map_cons, here]
      refine congrArg (g (k, v) :: ·) (List.map_congr_left ?_)
      intro e listed
      apply others e listed
      rintro rfl
      exact fresh (List.mem_map.2 ⟨e, listed, rfl⟩)
    · rw [get?, if_neg same] at known
      rw [insert, if_neg same, List.map_cons, List.map_cons, first same, ih distinct known others]

omit [DecidableEq κ] in
/-- New entries keep keys distinct. -/
theorem nodup_keys_append {es fs : List (κ × α)} (left : (keys es).Nodup) (right : (keys fs).Nodup)
    (fresh : ∀ f ∈ fs, f.1 ∉ keys es) : (keys (es ++ fs)).Nodup := by
  rw [keys_append, List.nodup_append]
  refine ⟨left, right, ?_⟩
  rintro key known _ added rfl
  obtain ⟨f, member, rfl⟩ := List.mem_map.1 added
  exact fresh f member known

omit [DecidableEq κ] in
/-- With distinct keys, an entry's key is not that of one before it. -/
theorem not_mem_of_nodup_keys {before after : List (κ × α)} {entry : κ × α}
    (distinct : (keys (before ++ entry :: after)).Nodup) : entry.1 ∉ keys before := by
  rw [keys_append, List.nodup_append] at distinct
  intro known
  exact distinct.2.2 entry.1 known entry.1 List.mem_cons_self rfl

/-- Pairs with new keys, each its own, are appended. -/
theorem insertAll_of_nodup {es pairs : List (κ × α)} (distinct : (keys (es ++ pairs)).Nodup) :
    insertAll es pairs = es ++ pairs := by
  induction pairs generalizing es with
  | nil => exact (List.append_nil es).symm
  | cons p pairs ih =>
    have fresh : p.1 ∉ keys es := not_mem_of_nodup_keys distinct
    rw [List.append_cons] at distinct ⊢
    rw [insertAll, List.foldl_cons, insert_of_not_mem fresh]
    exact ih distinct

theorem insertAll_nil {pairs : List (κ × α)} (distinct : (keys pairs).Nodup) :
    insertAll [] pairs = pairs :=
  insertAll_of_nodup distinct

/-- Of pairs with distinct keys, each is what its key has in the end. -/
theorem get?_insertAll (es : List (κ × α)) {pairs : List (κ × α)}
    (distinct : (keys pairs).Nodup) (key : κ) :
    get? (insertAll es pairs) key = (get? pairs key).or (get? es key) := by
  induction pairs generalizing es with
  | nil => rfl
  | cons p pairs ih =>
    obtain ⟨k, v⟩ := p
    obtain ⟨fresh, distinct⟩ := List.nodup_cons.1 distinct
    rw [insertAll, List.foldl_cons, ← insertAll, ih _ distinct, get?_insert, get?]
    by_cases same : k = key
    · subst same
      have gone : get? pairs k = none := get?_eq_none_of_not_mem fresh
      simp [gone]
    · simp [same]

/-- Known keys stay where they are, and new ones follow in the order of the pairs. -/
theorem keys_insertAll (es : List (κ × α)) {pairs : List (κ × α)} (distinct : (keys pairs).Nodup) :
    keys (insertAll es pairs) = keys es ++ (keys pairs).filter fun key => key ∉ keys es := by
  induction pairs generalizing es with
  | nil => exact (List.append_nil (keys es)).symm
  | cons p pairs ih =>
    obtain ⟨key, value⟩ := p
    obtain ⟨fresh, distinct⟩ := List.nodup_cons.1 distinct
    have rest : keys ((key, value) :: pairs) = key :: keys pairs := rfl
    rw [insertAll, List.foldl_cons, ← insertAll, ih _ distinct, keys_insert, rest]
    by_cases known : key ∈ keys es
    · rw [if_pos known, List.filter_cons_of_neg (by simpa using known)]
    · have later : (keys pairs).filter (fun other => other ∉ keys es ++ [key]) =
          (keys pairs).filter fun other => other ∉ keys es := by
        apply List.filter_congr
        intro other member
        have differs : other ≠ key := by
          rintro rfl
          exact fresh member
        simp [differs]
      rw [if_neg known, later, List.filter_cons_of_pos (by simpa using known), List.append_assoc,
        List.singleton_append]

/-- What a key has in the end: the last value that the pairs have for it, or else its old one. -/
theorem get?_insertAll_reverse (es pairs : List (κ × α)) (key : κ) :
    get? (insertAll es pairs) key = (get? pairs.reverse key).or (get? es key) := by
  induction pairs generalizing es with
  | nil => rfl
  | cons p pairs ih =>
    obtain ⟨k, v⟩ := p
    rw [insertAll, List.foldl_cons, ← insertAll, ih, List.reverse_cons, get?_append, get?_insert,
      get?, get?]
    by_cases same : k = key
    · simp [same]
    · simp [same]

/-- A list without repetitions is made of its first occurrences. -/
theorem eraseDups_of_nodup {xs : List κ} (distinct : xs.Nodup) : xs.eraseDups = xs := by
  induction xs with
  | nil => rfl
  | cons x xs ih =>
    obtain ⟨fresh, distinct⟩ := List.nodup_cons.1 distinct
    have others : xs.filter (fun y => !y == x) = xs := by
      rw [List.filter_eq_self]
      intro y member
      have differs : y ≠ x := fun same => fresh (same ▸ member)
      simpa using differs
    rw [List.eraseDups_cons, others, ih distinct]

/-- Keys stand in the order in which they were first inserted. -/
theorem keys_insertAll_eraseDups {es : List (κ × α)} (distinct : (keys es).Nodup)
    (pairs : List (κ × α)) :
    keys (insertAll es pairs) = (keys es ++ keys pairs).eraseDups := by
  induction pairs generalizing es with
  | nil =>
    have whole : keys es ++ keys ([] : List (κ × α)) = keys es := List.append_nil _
    rw [insertAll, List.foldl_nil, whole, eraseDups_of_nodup distinct]
  | cons p pairs ih =>
    obtain ⟨key, value⟩ := p
    rw [insertAll, List.foldl_cons, ← insertAll, ih (nodup_keys_insert distinct key value),
      keys_insert]
    split
    · next known =>
      have rest : (key :: keys pairs).removeAll (keys es) = (keys pairs).removeAll (keys es) := by
        simp [List.removeAll, known]
      rw [List.eraseDups_append, ← rest, ← List.eraseDups_append]
      rfl
    · rw [List.append_assoc]
      rfl

/-- With distinct keys, the values hold what the value of one key holds and what the others hold. -/
theorem count_values [BEq β] {es : List (κ × α)} (distinct : (keys es).Nodup) (key : κ)
    (held : α → List β) (b : β) :
    ((es.map Prod.snd).flatMap held).count b =
      (((get? es key).map held).getD []).count b +
        (((es.filter fun e => e.1 ≠ key).map Prod.snd).flatMap held).count b := by
  induction es with
  | nil => simp [get?]
  | cons e es ih =>
    obtain ⟨k, v⟩ := e
    obtain ⟨fresh, distinct⟩ := List.nodup_cons.1 distinct
    have split := ih distinct
    by_cases h : k = key
    · subst h
      have gone : get? es k = none := get?_eq_none_of_not_mem fresh
      rw [gone] at split
      simp [get?, List.count_append, split]
    · simp only [get?, h, if_false, List.map_cons, List.flatMap_cons, List.count_append, split,
        ne_eq, not_false_eq_true, decide_true, List.filter_cons_of_pos]
      omega

end Entries

namespace OrderedMap

/-- A map is made of its own entries. -/
theorem ofList_entries (m : OrderedMap κ α) : ofList m.entries = m :=
  ext (Entries.insertAll_nil m.nodup)

theorem contains_iff_mem_keys {m : OrderedMap κ α} {key : κ} :
    m.contains key = true ↔ key ∈ m.keys :=
  Entries.isSome_get?_iff

theorem keys_insert (m : OrderedMap κ α) (key : κ) (value : α) :
    (m.insert key value).keys = if key ∈ m.keys then m.keys else m.keys ++ [key] :=
  Entries.keys_insert m.entries key value

theorem get?_erase (m : OrderedMap κ α) (key other : κ) :
    (m.erase key).get? other = if other = key then none else m.get? other :=
  Entries.get?_filter_ne m.entries key other

theorem erase_insert (m : OrderedMap κ α) (key : κ) (value : α) :
    (m.insert key value).erase key = m.erase key :=
  ext (Entries.filter_ne_insert m.entries key value)

theorem erase_erase (m : OrderedMap κ α) (key : κ) : (m.erase key).erase key = m.erase key :=
  ext (by simp [erase, List.filter_filter])

/-- Writing the value that a key has changes nothing. -/
theorem insert_of_get? {m : OrderedMap κ α} {key : κ} {value : α} (h : m.get? key = some value) :
    m.insert key value = m :=
  ext (Entries.insert_of_get? h)

theorem count_values [BEq β] (m : OrderedMap κ α) (key : κ) (held : α → List β) (b : β) :
    (m.values.flatMap held).count b =
      (((m.get? key).map held).getD []).count b + ((m.erase key).values.flatMap held).count b :=
  Entries.count_values m.nodup key held b

end OrderedMap

end ChangeAudit
