/-!
# Texts as bytes

`Utf8.decode?` reads exactly the bytes that `Utf8.encode` writes.
-/

namespace ChangeAudit.Text.Utf8

/-- The UTF-8 bytes of a text. -/
def encode (s : String) : List UInt8 := s.toByteArray.data.toList

/-- The text whose UTF-8 bytes these are. -/
def decode? (bytes : List UInt8) : Option String := String.fromUTF8? ⟨bytes.toArray⟩

@[simp] theorem encode_empty : encode "" = [] := rfl

theorem encode_append (s t : String) : encode (s ++ t) = encode s ++ encode t := by
  simp only [encode, String.toByteArray_append, ByteArray.data_append, Array.toList_append]

theorem decode?_encode (s : String) : decode? (encode s) = some s := by
  simp only [decode?, encode, Array.toArray_toList]
  exact dif_pos s.isValidUTF8

theorem decode?_eq_some_iff {bytes : List UInt8} {s : String} :
    decode? bytes = some s ↔ bytes = encode s := by
  constructor
  · intro h
    simp only [decode?, String.fromUTF8?] at h
    split at h
    · rw [← Option.some.inj h]; rfl
    · exact absurd h (by simp)
  · rintro rfl
    exact decode?_encode s

end ChangeAudit.Text.Utf8
