import ChangeAudit.Keyring
import ChangeAudit.Proofs.Cipher.Gcm
import ChangeAudit.Proofs.Envelope
import ChangeAudit.Proofs.OrderedMap

/-!
# What a key ring keeps readable

A ring that starts with one key and then takes any calls always holds the key of its active id, so
it can always seal. A text that it sealed stays readable for its property under every later call,
unless one of them gives the id of its key other bytes (`kept_new`). Two facts carry this: no call
removes an id (`keyIds_afterCall`), and the key of an id changes only where the id is registered
again (`get?_after`).
-/

namespace ChangeAudit.Keyring

open Cipher
open Text

/-- A call on a ring; the nonce of a sealing has its twelve bytes. -/
inductive Call where
  | withKey (keyId : String) (key : Key)
  | rotateTo (keyId : String)
  | sealText (nonce : List UInt8) (twelve : nonce.length = Envelope.nonceLength)
      (property plain : String)

/-- The id that a call registers. -/
def Call.registered? : Call → Option String
  | .withKey keyId _ => some keyId
  | _ => none

/-- The ring after a call; sealing leaves it as it is. -/
def afterCall (r : Keyring) : Call → Keyring
  | .withKey keyId key => r.step (.withKey keyId key)
  | .rotateTo keyId => r.step (.rotateTo keyId)
  | .sealText _ _ _ _ => r

/-- The ring after calls. -/
def after (r : Keyring) (calls : List Call) : Keyring := calls.foldl afterCall r

/-- No call gives the id other bytes than those of the key. -/
def Leaves (keyId : String) (key : Key) (calls : List Call) : Prop :=
  ∀ other, .withKey keyId other ∈ calls → other = key

/-- What a ring keeps that began with the key of `keyId` and took calls. -/
structure Kept (keyId : String) (key : Key) (calls : List Call) (ring : Keyring) : Prop where
  active : ring.active ∈ ring.keyIds
  seals : ∀ nonce property plain, ∃ text, ring.sealText nonce property plain = .ok text
  keyIds : ring.keyIds = (keyId :: calls.filterMap Call.registered?).eraseDups
  rotates : ∀ id, id ∈ ring.keyIds → ring.step (.rotateTo id) = { ring with active := id }
  refuses : ∀ id e, ring.rotateTo id = .error e → id ∉ ring.keyIds ∧ ring.step (.rotateTo id) = ring
  readable : ∀ before nonce twelve property plain later text sealing,
    calls = before ++ .sealText nonce twelve property plain :: later →
      ((new keyId key).after before).sealText nonce property plain = .ok text →
      ((new keyId key).after before).key ((new keyId key).after before).active = .ok sealing →
      Leaves ((new keyId key).after before).active sealing later →
      ring.openText property text = .ok plain

/-! ## One call -/

theorem keyIds_new (keyId : String) (key : Key) : (new keyId key).keyIds = [keyId] := rfl

variable {r : Keyring} {keyId : String} {key : Key}

theorem mem_keyIds : keyId ∈ r.keyIds ↔ r.keys.contains keyId = true :=
  OrderedMap.contains_iff_mem_keys.symm

theorem rotateTo_eq (r : Keyring) (keyId : String) :
    r.rotateTo keyId =
      if keyId ∈ r.keyIds then .ok { r with active := keyId } else .error (.unregisteredKey keyId) := by
  simp only [rotateTo, mem_keyIds]

theorem key_eq_ok_iff : r.key keyId = .ok key ↔ r.keys.get? keyId = some key := by
  unfold Keyring.key
  cases r.keys.get? keyId <;> simp

/-- A rotation makes a registered id the active one, or changes nothing. -/
theorem step_rotateTo_cases (r : Keyring) (keyId : String) :
    (keyId ∈ r.keyIds ∧ r.step (.rotateTo keyId) = { r with active := keyId }) ∨
      (keyId ∉ r.keyIds ∧ r.step (.rotateTo keyId) = r) := by
  by_cases registered : keyId ∈ r.keyIds
  · exact .inl ⟨registered, by rw [step, rotateTo_eq, if_pos registered]⟩
  · exact .inr ⟨registered, by rw [step, rotateTo_eq, if_neg registered]⟩

/-- The keys of a ring change only where one is registered. -/
theorem keys_afterCall (r : Keyring) (c : Call) :
    (∃ keyId key, c = .withKey keyId key ∧ (r.afterCall c).keys = r.keys.insert keyId key) ∨
      (c.registered? = none ∧ (r.afterCall c).keys = r.keys) := by
  cases c with
  | withKey keyId key => exact .inl ⟨keyId, key, rfl, rfl⟩
  | rotateTo keyId =>
    refine .inr ⟨rfl, ?_⟩
    rcases step_rotateTo_cases r keyId with ⟨_, turned⟩ | ⟨_, same⟩
    · rw [afterCall, turned]
    · rw [afterCall, same]
  | sealText nonce twelve property plain => exact .inr ⟨rfl, rfl⟩

theorem keyIds_afterCall (r : Keyring) (c : Call) {ids : List String}
    (h : r.keyIds = ids.eraseDups) :
    (r.afterCall c).keyIds = (ids ++ c.registered?.toList).eraseDups := by
  rcases keys_afterCall r c with ⟨keyId, key, rfl, inserted⟩ | ⟨silent, same⟩
  · have member : keyId ∈ r.keys.keys ↔ keyId ∈ ids := by
      rw [← List.mem_eraseDups (l := ids), ← h, keyIds]
    rw [keyIds, inserted, OrderedMap.keys_insert, List.eraseDups_append, ← h, keyIds]
    by_cases known : keyId ∈ ids
    · simp [Call.registered?, member, known, List.removeAll]
    · simp [Call.registered?, member, known, List.removeAll, List.eraseDups_cons]
  · rw [keyIds, same, silent, Option.toList_none, List.append_nil, ← h, keyIds]

theorem active_afterCall (c : Call) (h : r.active ∈ r.keyIds) :
    (r.afterCall c).active ∈ (r.afterCall c).keyIds := by
  cases c with
  | withKey keyId key =>
    rw [keyIds] at h
    change r.active ∈ (r.keys.insert keyId key).keys
    rw [OrderedMap.keys_insert]
    split
    · exact h
    · exact List.mem_append_left _ h
  | rotateTo keyId =>
    rcases step_rotateTo_cases r keyId with ⟨registered, turned⟩ | ⟨_, same⟩
    · rw [afterCall, turned]
      exact registered
    · rw [afterCall, same]
      exact h
  | sealText nonce twelve property plain => exact h

/-! ## Calls one after the other -/

theorem after_cons (r : Keyring) (c : Call) (calls : List Call) :
    r.after (c :: calls) = (r.afterCall c).after calls := rfl

theorem after_append (r : Keyring) (before later : List Call) :
    r.after (before ++ later) = (r.after before).after later :=
  List.foldl_append

theorem active_after (calls : List Call) (h : r.active ∈ r.keyIds) :
    (r.after calls).active ∈ (r.after calls).keyIds := by
  induction calls generalizing r with
  | nil => exact h
  | cons c calls ih => exact ih (active_afterCall c h)

theorem keyIds_after (calls : List Call) {ids : List String} (h : r.keyIds = ids.eraseDups) :
    (r.after calls).keyIds = (ids ++ calls.filterMap Call.registered?).eraseDups := by
  induction calls generalizing r ids with
  | nil => rw [List.filterMap_nil, List.append_nil]; exact h
  | cons c calls ih =>
    rw [after_cons, ih (keyIds_afterCall r c h), List.append_assoc]
    congr 2
    cases told : c.registered? <;> simp [told]

/-- The key of an id stays as long as the id is not registered with other bytes. -/
theorem get?_after {calls : List Call} (h : r.keys.get? keyId = some key)
    (leaves : Leaves keyId key calls) : (r.after calls).keys.get? keyId = some key := by
  induction calls generalizing r with
  | nil => exact h
  | cons c calls ih =>
    refine ih ?_ (fun other member => leaves other (List.mem_cons_of_mem c member))
    rcases keys_afterCall r c with ⟨id, other, rfl, inserted⟩ | ⟨_, same⟩
    · rw [inserted, OrderedMap.get?_insert]
      split
      · rename_i again
        subst again
        rw [leaves other List.mem_cons_self]
      · exact h
    · rw [same]
      exact h

/-! ## Sealing and opening -/

theorem sealText_of_key {nonce : List UInt8} {property plain : String}
    (h : r.key r.active = .ok key) :
    r.sealText nonce property plain = .ok (Envelope.text
      ⟨r.active, nonce, Gcm.sealBytes key nonce (Utf8.encode property) (Utf8.encode plain)⟩) := by
  rw [sealText, h]

/-- A ring opens what was sealed under the key that it has for the id. -/
theorem openText_text {nonce : List UInt8} {property plain : String}
    (twelve : nonce.length = Envelope.nonceLength) (h : r.key keyId = .ok key) :
    r.openText property (Envelope.text
      ⟨keyId, nonce, Gcm.sealBytes key nonce (Utf8.encode property) (Utf8.encode plain)⟩) =
        .ok plain := by
  simp only [openText, Envelope.parse_text (v := ⟨keyId, nonce, _⟩) twelve, h,
    Gcm.openBytes?_sealBytes, Utf8.decode?_encode]

theorem exists_key (active : r.active ∈ r.keyIds) : ∃ key, r.key r.active = .ok key := by
  rw [mem_keyIds, OrderedMap.contains, Option.isSome_iff_exists] at active
  obtain ⟨key, held⟩ := active
  exact ⟨key, key_eq_ok_iff.2 held⟩

/-- A ring with the key of its active id seals. -/
theorem exists_sealText (active : r.active ∈ r.keyIds) (nonce : List UInt8)
    (property plain : String) : ∃ text, r.sealText nonce property plain = .ok text := by
  obtain ⟨key, held⟩ := exists_key active
  exact ⟨_, sealText_of_key held⟩

/-- What a ring sealed is opened after all calls that leave the key of its active id. -/
theorem openText_after {nonce : List UInt8} (twelve : nonce.length = Envelope.nonceLength)
    {property plain text : String} {later : List Call}
    (sealed : r.sealText nonce property plain = .ok text) (held : r.key r.active = .ok key)
    (leaves : Leaves r.active key later) : (r.after later).openText property text = .ok plain := by
  rw [sealText_of_key held] at sealed
  cases sealed
  exact openText_text twelve (key_eq_ok_iff.2 (get?_after (key_eq_ok_iff.1 held) leaves))

/-- **A key ring keeps what it sealed readable**: after any calls on the ring of one key, the active
id is registered and sealing works, the ids are those ever registered in the order of their first
registration, a refused rotation changes nothing, and each text sealed on the way opens for its
property, unless a later call gave the id of its key other bytes. -/
theorem kept_new (keyId : String) (key : Key) (calls : List Call) :
    Kept keyId key calls ((new keyId key).after calls) := by
  have active : ((new keyId key).after calls).active ∈ ((new keyId key).after calls).keyIds :=
    active_after calls List.mem_cons_self
  have ids : ((new keyId key).after calls).keyIds =
      ([keyId] ++ calls.filterMap Call.registered?).eraseDups :=
    keyIds_after calls (keyIds_new keyId key)
  refine ⟨active, exists_sealText active, ids, ?_, ?_, ?_⟩
  · intro id registered
    rw [step, rotateTo_eq, if_pos registered]
  · intro id e failed
    rcases step_rotateTo_cases ((new keyId key).after calls) id with ⟨registered, _⟩ | refused
    · rw [rotateTo_eq, if_pos registered] at failed
      nomatch failed
    · exact refused
  · rintro before nonce twelve property plain later text sealing rfl sealed held leaves
    rw [after_append, after_cons, afterCall]
    exact openText_after twelve sealed held leaves

/-- A text sealed with the first key, read after a second key, a rotation to it and a refused one. -/
theorem kept_new_rotated : ∃ (old next : Key) (text : String) (calls : List Call),
    (new "k1" old).sealText (List.replicate 12 7) "password" "hunter2" = .ok text ∧
      calls = [.sealText (List.replicate 12 7) rfl "password" "hunter2", .withKey "k2" next,
        .rotateTo "k2", .rotateTo "k9"] ∧
      Leaves "k1" old [.withKey "k2" next, .rotateTo "k2", .rotateTo "k9"] ∧
      ((new "k1" old).after calls).keyIds = ["k1", "k2"] ∧
      ((new "k1" old).after calls).active = "k2" ∧
      ((new "k1" old).after calls).openText "password" text = .ok "hunter2" := by
  let old : Key := ⟨List.replicate 32 0x42, rfl⟩
  let next : Key := ⟨List.replicate 32 0x7A, rfl⟩
  let later : List Call := [.withKey "k2" next, .rotateTo "k2", .rotateTo "k9"]
  have kept := kept_new "k1" old (.sealText (List.replicate 12 7) rfl "password" "hunter2" :: later)
  have leaves : Leaves "k1" old later := by
    intro other member
    simp [later] at member
  obtain ⟨text, sealed⟩ := exists_sealText (r := new "k1" old) List.mem_cons_self
    (List.replicate 12 7) "password" "hunter2"
  exact ⟨old, next, text, _, sealed, rfl, leaves, rfl, rfl,
    kept.readable [] _ rfl _ _ later text old rfl sealed rfl leaves⟩

end ChangeAudit.Keyring
