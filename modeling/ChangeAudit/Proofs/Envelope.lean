import ChangeAudit.Envelope
import ChangeAudit.Proofs.Text.Base64

/-!
# Sealed values both ways

The texts that `Envelope.parse` accepts are the ones that `Envelope.text` writes for a nonce of
twelve bytes, and each of them is read as the value that it was written for
(`parse_eq_ok_iff_text`). The key id may hold anything, colons and the opening included: base64
has no colon, so the last two colons of a text are those that `render` put there.
-/

namespace ChangeAudit.Envelope

open Text

/-! ## Taking a text apart -/

theorem dropOpening?_eq_some_iff {os cs rest : List Char} :
    dropOpening? os cs = some rest ↔ cs = os ++ rest := by
  induction os generalizing cs with
  | nil => simp [dropOpening?]
  | cons o os ih =>
    cases cs with
    | nil => simp [dropOpening?]
    | cons c cs =>
      by_cases same : o = c
      · simp [dropOpening?, same, ih]
      · simp [dropOpening?, same, Ne.symm same]

theorem splitLast?_eq_none_iff {mark : Char} {cs : List Char} :
    splitLast? mark cs = none ↔ mark ∉ cs := by
  induction cs with
  | nil => simp [splitLast?]
  | cons c cs ih =>
    rw [splitLast?]
    cases later : splitLast? mark cs with
    | some parts =>
      have found : ¬ mark ∉ cs := by
        intro absent
        rw [ih.2 absent] at later
        nomatch later
      simp [Classical.not_not.1 found]
    | none =>
      have absent : mark ∉ cs := ih.1 later
      by_cases same : c = mark
      · simp [same]
      · simp [same, Ne.symm same, absent]

/-- The parts are those around a mark that no other one follows. -/
theorem splitLast?_eq_some_iff {mark : Char} {cs before after : List Char} :
    splitLast? mark cs = some (before, after) ↔ cs = before ++ mark :: after ∧ mark ∉ after := by
  constructor
  · intro h
    induction cs generalizing before with
    | nil => nomatch h
    | cons c cs ih =>
      rw [splitLast?] at h
      cases later : splitLast? mark cs with
      | some parts =>
        obtain ⟨front, back⟩ := parts
        rw [later] at h
        cases h
        obtain ⟨rfl, absent⟩ := ih later
        exact ⟨rfl, absent⟩
      | none =>
        simp only [later] at h
        split at h
        · rename_i same
          cases h
          exact ⟨by rw [same]; rfl, splitLast?_eq_none_iff.1 later⟩
        · nomatch h
  · rintro ⟨rfl, absent⟩
    induction before with
    | nil => simp [splitLast?, splitLast?_eq_none_iff.2 absent]
    | cons c before ih => simp [splitLast?, ih]

theorem parts?_eq_some_iff {body keyId nonce ciphertext : List Char} :
    parts? body = some (keyId, nonce, ciphertext) ↔
      body = keyId ++ ':' :: (nonce ++ ':' :: ciphertext) ∧ ':' ∉ nonce ∧ ':' ∉ ciphertext := by
  simp only [parts?, Option.bind_eq_bind, Option.bind_eq_some_iff, Prod.exists,
    splitLast?_eq_some_iff, Option.some.injEq, Prod.mk.injEq]
  constructor
  · rintro ⟨front, back, ⟨rfl, inBack⟩, id, middle, ⟨rfl, inMiddle⟩, rfl, rfl, rfl⟩
    exact ⟨by simp, inMiddle, inBack⟩
  · rintro ⟨rfl, inNonce, inCiphertext⟩
    exact ⟨keyId ++ ':' :: nonce, ciphertext, ⟨by simp, inCiphertext⟩, keyId, nonce,
      ⟨rfl, inNonce⟩, rfl, rfl, rfl⟩

/-! ## Both directions -/

theorem parseChars_render {v : Envelope} (twelve : v.nonce.length = nonceLength) :
    parseChars v.render = .ok v := by
  have opened : dropOpening? opening v.render =
      some (v.keyId.toList ++ ':' :: (Base64.encode v.nonce ++ ':' :: Base64.encode v.ciphertext)) :=
    dropOpening?_eq_some_iff.2 rfl
  have divided : parts?
      (v.keyId.toList ++ ':' :: (Base64.encode v.nonce ++ ':' :: Base64.encode v.ciphertext)) =
        some (v.keyId.toList, Base64.encode v.nonce, Base64.encode v.ciphertext) :=
    parts?_eq_some_iff.2
      ⟨rfl, Base64.colon_not_mem_encode v.nonce, Base64.colon_not_mem_encode v.ciphertext⟩
  simp only [parseChars, opened, divided, Base64.decode?_encode, twelve, ne_eq, not_true_eq_false,
    if_false, String.ofList_toList]

theorem render_of_parseChars {cs : List Char} {v : Envelope} (h : parseChars cs = .ok v) :
    v.nonce.length = nonceLength ∧ v.render = cs := by
  unfold parseChars at h
  cases opened : dropOpening? opening cs with
  | none => simp [opened] at h
  | some body =>
    cases divided : parts? body with
    | none => simp [opened, divided] at h
    | some parts =>
      obtain ⟨keyId, nonceText, ciphertextText⟩ := parts
      cases readNonce : Base64.decode? nonceText with
      | none => simp [opened, divided, readNonce] at h
      | some nonce =>
        by_cases twelve : nonce.length = nonceLength
        · cases readCiphertext : Base64.decode? ciphertextText with
          | none => simp [opened, divided, readNonce, twelve, readCiphertext] at h
          | some ciphertext =>
            simp only [opened, divided, readNonce, twelve, readCiphertext, ne_eq,
              not_true_eq_false, if_false, Except.ok.injEq] at h
            subst h
            refine ⟨twelve, ?_⟩
            rw [dropOpening?_eq_some_iff.1 opened, (parts?_eq_some_iff.1 divided).1,
              Base64.decode?_eq_some_iff.1 readNonce, Base64.decode?_eq_some_iff.1 readCiphertext,
              render, String.toList_ofList]
        · simp [opened, divided, readNonce, twelve] at h

theorem parse_text {v : Envelope} (twelve : v.nonce.length = nonceLength) :
    parse v.text = .ok v := by
  rw [parse, text, String.toList_ofList, parseChars_render twelve]

theorem text_of_parse {t : String} {v : Envelope} (h : parse t = .ok v) :
    v.nonce.length = nonceLength ∧ v.text = t := by
  obtain ⟨twelve, same⟩ := render_of_parseChars h
  exact ⟨twelve, by rw [text, same, String.ofList_toList]⟩

theorem isSealed_iff {t : String} : isSealed t = true ↔ ∃ v, parse t = .ok v := by
  unfold isSealed
  cases parse t <;> simp

/-- **Reading and writing undo each other**: a text is read as a value exactly when the value has a
nonce of twelve bytes and the text is the one written for it, and a text counts as sealed exactly
when it is written for some such value. -/
theorem parse_eq_ok_iff_text (t : String) :
    (∀ v, parse t = .ok v ↔ v.nonce.length = nonceLength ∧ v.text = t) ∧
      (isSealed t = true ↔ ∃ v : Envelope, v.nonce.length = nonceLength ∧ v.text = t) := by
  have reads : ∀ v, parse t = .ok v ↔ v.nonce.length = nonceLength ∧ v.text = t := by
    intro v
    constructor
    · exact text_of_parse
    · rintro ⟨twelve, rfl⟩
      exact parse_text twelve
  exact ⟨reads, by simp only [isSealed_iff, reads]⟩

end ChangeAudit.Envelope
