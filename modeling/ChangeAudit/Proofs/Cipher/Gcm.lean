import ChangeAudit.Cipher.Gcm

/-!
# Opening what was sealed

Opening inverts sealing under the same key, nonce and associated data (`openBytes?_sealBytes`). The
block cipher need not be understood for it: the key stream is added and taken off again, so all that
counts is that it is as long as the message and that a tag has sixteen bytes. Both follow from the
length of a block (`Aes256.length_encrypt`), whatever the length of the nonce.
-/

namespace ChangeAudit.Cipher

theorem length_xorBytes (a b : List UInt8) : (xorBytes a b).length = min a.length b.length := by
  simp [xorBytes]

/-- Adding a stream twice adds nothing. -/
theorem xorBytes_xorBytes {message stream : List UInt8} (long : message.length ≤ stream.length) :
    xorBytes (xorBytes message stream) stream = message := by
  induction message generalizing stream with
  | nil => simp [xorBytes]
  | cons m message ih =>
    cases stream with
    | nil => simp at long
    | cons s stream =>
      have rest : xorBytes (xorBytes message stream) stream = message := ih (by simpa using long)
      simp only [xorBytes, List.zipWith_cons_cons] at rest ⊢
      rw [rest, UInt8.xor_assoc, UInt8.xor_self, UInt8.xor_zero]

namespace Aes256

/-! ## The length of the round keys -/

theorem length_groups (size count : Nat) (bytes : List UInt8) :
    (groups size count bytes).length = count := by
  induction count generalizing bytes with
  | zero => rfl
  | succ count ih => rw [groups, List.length_cons, ih]

theorem length_of_mem_groups {size count : Nat} {bytes group : List UInt8}
    (enough : size * count ≤ bytes.length) (member : group ∈ groups size count bytes) :
    group.length = size := by
  induction count generalizing bytes with
  | zero => nomatch member
  | succ count ih =>
    rw [Nat.mul_succ] at enough
    rw [groups, List.mem_cons] at member
    rcases member with rfl | member
    · rw [List.length_take]
      omega
    · refine ih ?_ member
      rw [List.length_drop]
      omega

theorem length_mixWord (i : Nat) (last : List UInt8) (round : UInt8) :
    (mixWord i last round).length = last.length := by
  unfold mixWord
  split
  · split
    · simp only [List.length_cons, List.length_nil]
    · rfl
  · split
    · exact List.length_map _
    · rfl

/-- The words of a schedule in the making: at least the eight of the key, of four bytes each. -/
structure IsSchedule (words : Array (List UInt8)) : Prop where
  begun : 8 ≤ words.size
  word : ∀ i, i < words.size → (words.getD i []).length = 4

theorem IsSchedule.push {words : Array (List UInt8)} (h : IsSchedule words) {w : List UInt8}
    (four : w.length = 4) : IsSchedule (words.push w) where
  begun := by
    have := h.begun
    rw [Array.size_push]
    omega
  word := by
    intro i bound
    rw [Array.size_push] at bound
    by_cases old : i < words.size
    · have same := h.word i old
      simpa [Array.getD, Array.getElem_push, old, bound] using same
    · have new : i = words.size := by omega
      subst new
      simpa [Array.getD] using four

theorem IsSchedule.extend {words : Array (List UInt8)} (h : IsSchedule words) (round : UInt8)
    (count : Nat) :
    IsSchedule (extend words words.size round count) ∧
      (Aes256.extend words words.size round count).size = words.size + count := by
  induction count generalizing words round with
  | zero => exact ⟨h, rfl⟩
  | succ count ih =>
    have begun := h.begun
    have four : (xorBytes (words.getD (words.size - 8) [])
        (mixWord words.size (words.getD (words.size - 1) []) round)).length = 4 := by
      rw [length_xorBytes, length_mixWord, h.word _ (by omega), h.word _ (by omega)]
      rfl
    have rest := ih (h.push four) (if words.size % 8 = 0 then double round else round)
    rw [Array.size_push] at rest
    rw [Aes256.extend]
    exact ⟨rest.1, by rw [rest.2]; omega⟩

/-- There are fifteen round keys of sixteen bytes. -/
theorem roundKeys_sizes (key : Key) :
    (roundKeys key).length = 15 ∧ ∀ k ∈ roundKeys key, k.length = 16 := by
  have begun : (groups 4 8 key.bytes).toArray.size = 8 := by
    rw [List.size_toArray, length_groups]
  have first : IsSchedule (groups 4 8 key.bytes).toArray := by
    refine ⟨Nat.le_of_eq begun.symm, ?_⟩
    intro i bound
    rw [List.size_toArray] at bound
    have four := length_of_mem_groups (Nat.le_of_eq key.length_eq.symm) (List.getElem_mem bound)
    simpa [Array.getD, bound] using four
  obtain ⟨schedule, size⟩ := first.extend 1 52
  rw [begun] at schedule size
  have total : ((extend (groups 4 8 key.bytes).toArray 8 1 52).toList.flatten).length = 240 := by
    have four : ∀ w ∈ (extend (groups 4 8 key.bytes).toArray 8 1 52).toList, w.length = 4 := by
      intro w member
      obtain ⟨i, bound, rfl⟩ := List.getElem_of_mem member
      have word := schedule.word i (by simpa using bound)
      simpa [Array.getD, show i < _ by simpa using bound] using word
    rw [List.length_flatten, List.map_congr_left four, List.map_const']
    simp [size]
  refine ⟨length_groups _ _ _, ?_⟩
  intro k member
  exact length_of_mem_groups (Nat.le_of_eq total.symm) member

/-! ## The length of a block -/

theorem length_shiftRows (block : List UInt8) : (shiftRows block).length = 16 := by
  simp [shiftRows]

/-- The last round key alone decides how long the block becomes. -/
theorem length_rounds {keys : List (List UInt8)} (some : keys ≠ [])
    (sizes : ∀ k ∈ keys, k.length = 16) (block : List UInt8) : (rounds keys block).length = 16 := by
  induction keys generalizing block with
  | nil => exact absurd rfl some
  | cons key keys ih =>
    cases keys with
    | nil =>
      rw [rounds, length_xorBytes, length_shiftRows, sizes key (by simp)]
      rfl
    | cons next keys =>
      rw [rounds]
      · exact ih (by simp) (fun k member => sizes k (by simp [member])) _
      · simp

theorem length_encrypt (key : Key) (block : List UInt8) :
    (encrypt (roundKeys key) block).length = 16 := by
  obtain ⟨count, sizes⟩ := roundKeys_sizes key
  cases keys : roundKeys key with
  | nil =>
    rw [keys] at count
    nomatch count
  | cons first rest =>
    rw [keys] at count sizes
    rw [encrypt]
    refine length_rounds ?_ (fun k member => sizes k (by simp [member])) _
    rintro rfl
    nomatch count

end Aes256

namespace Gcm

/-! ## Adding the key stream twice -/

theorem length_toBytes (count n : Nat) : (toBytes count n).length = count := by
  simp [toBytes]

theorem length_keyStream (key : Key) (nonce : List UInt8) (count : Nat) :
    (keyStream (Aes256.roundKeys key) nonce count).length = 16 * count := by
  simp [keyStream, List.length_flatMap, Aes256.length_encrypt, List.map_const', Nat.mul_comm]

theorem length_mask (key : Key) (nonce message : List UInt8) :
    (mask (Aes256.roundKeys key) nonce message).length = message.length := by
  rw [mask, length_xorBytes, length_keyStream, blockCount]
  omega

theorem mask_mask (key : Key) (nonce message : List UInt8) :
    mask (Aes256.roundKeys key) nonce (mask (Aes256.roundKeys key) nonce message) = message := by
  have same : blockCount (mask (Aes256.roundKeys key) nonce message) = blockCount message := by
    rw [blockCount, length_mask, blockCount]
  rw [mask, same, mask]
  refine xorBytes_xorBytes ?_
  rw [length_keyStream, blockCount]
  omega

theorem length_tag (key : Key) (nonce associated encrypted : List UInt8) :
    (tag (Aes256.roundKeys key) nonce associated encrypted).length = 16 := by
  rw [tag, length_xorBytes, length_toBytes, Aes256.length_encrypt]
  rfl

/-- **Opening inverts sealing** under the same key, nonce and associated data. -/
theorem openBytes?_sealBytes (key : Key) (nonce associated message : List UInt8) :
    openBytes? key nonce associated (sealBytes key nonce associated message) = some message := by
  have split : (sealBytes key nonce associated message).length - 16 =
      (mask (Aes256.roundKeys key) nonce message).length := by
    rw [sealBytes, List.length_append, length_tag, Nat.add_sub_cancel]
  have long : 16 ≤ (sealBytes key nonce associated message).length := by
    rw [sealBytes, List.length_append, length_tag]
    omega
  simp only [openBytes?, split, long, true_and]
  rw [sealBytes, List.take_left, List.drop_left, if_pos rfl, mask_mask]

end Gcm

end ChangeAudit.Cipher
