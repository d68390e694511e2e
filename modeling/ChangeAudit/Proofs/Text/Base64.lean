import ChangeAudit.Text.Base64

/-!
# Base64 both ways

Every list of bytes has one text (`decode?_eq_some_iff`): what `encode` writes is read back, and
`decode?` accepts nothing else, since a padded group has to leave the unused bits at zero. The
characters of a text are those of the alphabet and the padding, so it holds no colon.
-/

namespace ChangeAudit.Text.Base64

/-! ## The alphabet -/

theorem value?_symbol {n : Nat} (h : n < 64) : value? (symbol n) = some n := by
  revert n
  decide

theorem symbol_of_value? {c : Char} {n : Nat} (h : value? c = some n) : n < 64 ∧ symbol n = c := by
  have back : Char.ofNat c.toNat = c := Char.ofNat_toNat c
  have upper : 'A' ≤ c ∧ c ≤ 'Z' ↔ 65 ≤ c.toNat ∧ c.toNat ≤ 90 := by
    simp [Char.le_def, UInt32.le_iff_toNat_le, ← Char.toNat_val]
  have lower : 'a' ≤ c ∧ c ≤ 'z' ↔ 97 ≤ c.toNat ∧ c.toNat ≤ 122 := by
    simp [Char.le_def, UInt32.le_iff_toNat_le, ← Char.toNat_val]
  have digit : '0' ≤ c ∧ c ≤ '9' ↔ 48 ≤ c.toNat ∧ c.toNat ≤ 57 := by
    simp [Char.le_def, UInt32.le_iff_toNat_le, ← Char.toNat_val]
  unfold value? at h
  simp only [upper, lower, digit] at h
  -- in each range of the alphabet the number and the code differ by a constant
  split at h
  · rename_i range
    cases h
    refine ⟨by omega, ?_⟩
    rw [symbol, if_pos (by omega), show 65 + (c.toNat - 65) = c.toNat by omega, back]
  · split at h
    · rename_i range
      cases h
      refine ⟨by omega, ?_⟩
      rw [symbol, if_neg (by omega), if_pos (by omega),
        show 71 + (c.toNat - 71) = c.toNat by omega, back]
    · split at h
      · rename_i range
        cases h
        refine ⟨by omega, ?_⟩
        rw [symbol, if_neg (by omega), if_neg (by omega), if_pos (by omega),
          show c.toNat + 4 - 4 = c.toNat by omega, back]
      · split at h
        · rename_i plus
          cases h
          exact ⟨by omega, plus ▸ by decide⟩
        · split at h
          · rename_i slash
            cases h
            exact ⟨by omega, slash ▸ by decide⟩
          · nomatch h

theorem value?_pad : value? '=' = none := by decide

theorem value?_colon : value? ':' = none := by decide

theorem symbol_ne_pad {n : Nat} (h : n < 64) : symbol n ≠ '=' := by
  intro same
  have read := value?_symbol h
  rw [same, value?_pad] at read
  nomatch read

theorem symbol_ne_colon {n : Nat} (h : n < 64) : symbol n ≠ ':' := by
  intro same
  have read := value?_symbol h
  rw [same, value?_colon] at read
  nomatch read

/-! ## One group -/

theorem toNat_ofNat_of_lt {n : Nat} (h : n < 256) : (UInt8.ofNat n).toNat = n := by
  rw [UInt8.toNat_ofNat', Nat.mod_eq_of_lt h]

/-- A group without padding is read the same whether or not it is the last one. -/
theorem decode?_group {x y z w : Nat} (hx : x < 64) (hy : y < 64) (hz : z < 64) (hw : w < 64)
    (rest : List Char) :
    decode? (symbol x :: symbol y :: symbol z :: symbol w :: rest) =
      (decode? rest).map fun bytes =>
        UInt8.ofNat (x * 4 + y / 16) :: UInt8.ofNat (y % 16 * 16 + z / 4)
          :: UInt8.ofNat (z % 4 * 64 + w) :: bytes := by
  cases rest with
  | nil =>
    simp [decode?, decodeLast?, value?_symbol, hx, hy, hz, hw, symbol_ne_pad]
  | cons c rest =>
    rw [decode?]
    · simp only [value?_symbol, hx, hy, hz, hw, Option.bind_eq_bind, Option.bind_some]
      cases decode? (c :: rest) <;> rfl
    · simp

/-- The numbers of a group are found again in its bytes. -/
theorem encode_group {x y z w : Nat} (hx : x < 64) (hy : y < 64) (hz : z < 64) (hw : w < 64)
    (bytes : List UInt8) :
    encode (UInt8.ofNat (x * 4 + y / 16) :: UInt8.ofNat (y % 16 * 16 + z / 4)
        :: UInt8.ofNat (z % 4 * 64 + w) :: bytes) =
      symbol x :: symbol y :: symbol z :: symbol w :: encode bytes := by
  have second : (x * 4 + y / 16) % 4 * 16 + (y % 16 * 16 + z / 4) / 16 = y := by omega
  have third : (y % 16 * 16 + z / 4) % 16 * 4 + (z % 4 * 64 + w) / 64 = z := by omega
  rw [encode, toNat_ofNat_of_lt (n := x * 4 + y / 16) (by omega),
    toNat_ofNat_of_lt (n := y % 16 * 16 + z / 4) (by omega),
    toNat_ofNat_of_lt (n := z % 4 * 64 + w) (by omega), second, third,
    show (x * 4 + y / 16) / 4 = x by omega, show (z % 4 * 64 + w) % 64 = w by omega]

theorem encode_pair {x y z : Nat} (hx : x < 64) (hy : y < 64) (hz : z < 64) (unused : z % 4 = 0) :
    encode [UInt8.ofNat (x * 4 + y / 16), UInt8.ofNat (y % 16 * 16 + z / 4)] =
      [symbol x, symbol y, symbol z, '='] := by
  have second : (x * 4 + y / 16) % 4 * 16 + (y % 16 * 16 + z / 4) / 16 = y := by omega
  rw [encode, toNat_ofNat_of_lt (n := x * 4 + y / 16) (by omega),
    toNat_ofNat_of_lt (n := y % 16 * 16 + z / 4) (by omega), second,
    show (x * 4 + y / 16) / 4 = x by omega, show (y % 16 * 16 + z / 4) % 16 * 4 = z by omega]

theorem encode_single {x y : Nat} (hx : x < 64) (hy : y < 64) (unused : y % 16 = 0) :
    encode [UInt8.ofNat (x * 4 + y / 16)] = [symbol x, symbol y, '=', '='] := by
  rw [encode, toNat_ofNat_of_lt (n := x * 4 + y / 16) (by omega),
    show (x * 4 + y / 16) / 4 = x by omega, show (x * 4 + y / 16) % 4 * 16 = y by omega]

/-! ## Both directions -/

theorem decode?_encode (bytes : List UInt8) : decode? (encode bytes) = some bytes := by
  induction bytes using encode.induct with
  | case1 => rfl
  | case2 a =>
    have ha := a.toNat_lt
    rw [encode, decode?, decodeLast?]
    simp only [value?_symbol (n := a.toNat / 4) (by omega),
      value?_symbol (n := a.toNat % 4 * 16) (by omega), Option.bind_eq_bind, Option.bind_some,
      and_self, if_true, Nat.mul_mod_left]
    rw [show a.toNat / 4 * 4 + a.toNat % 4 * 16 / 16 = a.toNat by omega, UInt8.ofNat_toNat]
  | case3 a b =>
    have ha := a.toNat_lt
    have hb := b.toNat_lt
    have pad : symbol (b.toNat % 16 * 4) ≠ '=' := symbol_ne_pad (by omega)
    rw [encode, decode?, decodeLast?]
    simp only [value?_symbol (n := a.toNat / 4) (by omega),
      value?_symbol (n := a.toNat % 4 * 16 + b.toNat / 16) (by omega),
      value?_symbol (n := b.toNat % 16 * 4) (by omega), pad, Option.bind_eq_bind,
      Option.bind_some, false_and, if_false, if_true, Nat.mul_mod_left]
    rw [show a.toNat / 4 * 4 + (a.toNat % 4 * 16 + b.toNat / 16) / 16 = a.toNat by omega,
      show (a.toNat % 4 * 16 + b.toNat / 16) % 16 * 16 + b.toNat % 16 * 4 / 4 = b.toNat by omega,
      UInt8.ofNat_toNat, UInt8.ofNat_toNat]
  | case4 a b c rest ih =>
    have ha := a.toNat_lt
    have hb := b.toNat_lt
    have hc := c.toNat_lt
    rw [encode, decode?_group (by omega) (by omega) (by omega) (by omega), ih, Option.map_some,
      show a.toNat / 4 * 4 + (a.toNat % 4 * 16 + b.toNat / 16) / 16 = a.toNat by omega,
      show (a.toNat % 4 * 16 + b.toNat / 16) % 16 * 16 + (b.toNat % 16 * 4 + c.toNat / 64) / 4 =
        b.toNat by omega,
      show (b.toNat % 16 * 4 + c.toNat / 64) % 4 * 64 + c.toNat % 64 = c.toNat by omega,
      UInt8.ofNat_toNat, UInt8.ofNat_toNat, UInt8.ofNat_toNat]

theorem encode_of_decodeLast? {a b c d : Char} {bytes : List UInt8}
    (h : decodeLast? a b c d = some bytes) : encode bytes = [a, b, c, d] := by
  simp only [decodeLast?, Option.bind_eq_bind, Option.bind_eq_some_iff] at h
  obtain ⟨x, readX, y, readY, h⟩ := h
  obtain ⟨hx, rfl⟩ := symbol_of_value? readX
  obtain ⟨hy, rfl⟩ := symbol_of_value? readY
  split at h
  · rename_i padded
    obtain ⟨rfl, rfl⟩ := padded
    split at h
    · rename_i unused
      cases h
      exact encode_single hx hy unused
    · nomatch h
  · rw [Option.bind_eq_some_iff] at h
    obtain ⟨z, readZ, h⟩ := h
    obtain ⟨hz, rfl⟩ := symbol_of_value? readZ
    split at h
    · rename_i padded
      subst padded
      split at h
      · rename_i unused
        cases h
        exact encode_pair hx hy hz unused
      · nomatch h
    · rw [Option.bind_eq_some_iff] at h
      obtain ⟨w, readW, h⟩ := h
      obtain ⟨hw, rfl⟩ := symbol_of_value? readW
      cases h
      exact encode_group hx hy hz hw []

theorem encode_of_decode? {cs : List Char} {bytes : List UInt8} (h : decode? cs = some bytes) :
    encode bytes = cs := by
  induction cs using decode?.induct generalizing bytes with
  | case1 =>
    cases h
    rfl
  | case2 a b c d => exact encode_of_decodeLast? h
  | case3 a b c d rest more ih =>
    rw [decode?] at h
    · simp only [Option.bind_eq_bind, Option.bind_eq_some_iff, Option.some.injEq] at h
      obtain ⟨x, readX, y, readY, z, readZ, w, readW, tail, read, rfl⟩ := h
      obtain ⟨hx, rfl⟩ := symbol_of_value? readX
      obtain ⟨hy, rfl⟩ := symbol_of_value? readY
      obtain ⟨hz, rfl⟩ := symbol_of_value? readZ
      obtain ⟨hw, rfl⟩ := symbol_of_value? readW
      rw [encode_group hx hy hz hw, ih read]
    · exact more
  | case4 cs _ _ _ =>
    simp_all [decode?]

/-- A text writes some bytes exactly when it is the text of these bytes. -/
theorem decode?_eq_some_iff {cs : List Char} {bytes : List UInt8} :
    decode? cs = some bytes ↔ cs = encode bytes := by
  constructor
  · intro h
    exact (encode_of_decode? h).symm
  · rintro rfl
    exact decode?_encode bytes

theorem colon_not_mem_encode (bytes : List UInt8) : ':' ∉ encode bytes := by
  induction bytes using encode.induct with
  | case1 => simp [encode]
  | case2 a =>
    have ha := a.toNat_lt
    simp [encode, (symbol_ne_colon (n := a.toNat / 4) (by omega)).symm,
      (symbol_ne_colon (n := a.toNat % 4 * 16) (by omega)).symm]
  | case3 a b =>
    have ha := a.toNat_lt
    have hb := b.toNat_lt
    simp [encode, (symbol_ne_colon (n := a.toNat / 4) (by omega)).symm,
      (symbol_ne_colon (n := a.toNat % 4 * 16 + b.toNat / 16) (by omega)).symm,
      (symbol_ne_colon (n := b.toNat % 16 * 4) (by omega)).symm]
  | case4 a b c rest ih =>
    have ha := a.toNat_lt
    have hb := b.toNat_lt
    have hc := c.toNat_lt
    simp [encode, (symbol_ne_colon (n := a.toNat / 4) (by omega)).symm,
      (symbol_ne_colon (n := a.toNat % 4 * 16 + b.toNat / 16) (by omega)).symm,
      (symbol_ne_colon (n := b.toNat % 16 * 4 + c.toNat / 64) (by omega)).symm,
      (symbol_ne_colon (n := c.toNat % 64) (by omega)).symm, ih]

end ChangeAudit.Text.Base64
