import ChangeAudit.Proofs.Instant
import ChangeAudit.Proofs.Keyring
import ChangeAudit.Proofs.Transition.Reported

/-!
# Masked values stay recoverable

A recorder that seals with a key ring shows of a masked value a text that the ring opens for the
property, and what comes out is the whole text of the value, however short the policy cuts others
(`Transition.masked_recovered`). It shows nothing exactly where there is no value. The ring always
holds the key of its active id, so no value is hidden for want of a key.
-/

namespace ChangeAudit

/-- What is shown of the value of a property, if it has one: nothing of none and of null, and else a
text sealed with the active key that opens to the whole text of the value. -/
structure Keyring.Recovers (ring : Keyring) (property : String) (value : Option Json)
    (shown : Option String) : Prop where
  absent : shown = none ↔ value = none ∨ value = some .null
  sealed : ∀ text ∈ shown, ∃ v, Envelope.parse text = .ok v ∧ v.keyId = ring.active
  opened : ∀ text ∈ shown, ∃ json plain,
    value = some json ∧ json.WholeText plain ∧ ring.openText property text = .ok plain

/-- The events of a transition report the properties that change, and what they show of masked ones
is recoverable: of the values before the transition, which an insert has none of, and of those after
it, which a delete has none of. -/
structure Transition.Recovered (policy : Policy) (ring : Keyring) (transition : Transition)
    (record : Record) (events : List Event) : Prop where
  reported : events.map Event.property =
    (policy.changedProperties (transition.before record.snapshot)
      (transition.after record.snapshot)).map some
  oldValue : ∀ e ∈ events, ∀ property ∈ e.property, policy.isMasked property = true →
    ring.Recovers property ((transition.before record.snapshot).get? property) e.oldValue
  newValue : ∀ e ∈ events, ∀ property ∈ e.property, policy.isMasked property = true →
    ring.Recovers property ((transition.after record.snapshot).get? property) e.newValue

section

variable {policy : Policy} {ring : Keyring} {property : String}

theorem Keyring.recovers_none_null {value : Option Json} (null : value.getD .null = .null) :
    ring.Recovers property value none where
  absent := by
    cases value with
    | none => simp
    | some json => simpa using null
  sealed := nofun
  opened := nofun

/-- A text that is sealed for the property, under a nonce of twelve bytes, is recoverable. -/
theorem Keyring.recovers_sealText {value : Option Json} {plain text : String} {nonce : List UInt8}
    (active : ring.active ∈ ring.keyIds) (whole : (value.getD .null).WholeText plain)
    (twelve : nonce.length = Envelope.nonceLength)
    (sealed : ring.sealText nonce property plain = .ok text) :
    ring.Recovers property value (some text) := by
  obtain ⟨key, held⟩ := exists_key active
  rw [sealText_of_key held] at sealed
  cases sealed
  obtain ⟨json, rfl⟩ : ∃ json, value = some json := by
    cases value with
    | none =>
      cases whole with
      | written some => exact absurd rfl some
    | some json => exact ⟨json, rfl⟩
  refine ⟨?_, ?_, ?_⟩
  · have some : json ≠ .null := by
      rintro rfl
      cases whole with
      | written some => exact some rfl
    simp [some]
  · rintro _ ⟨⟩
    exact ⟨_, Envelope.parse_text twelve, rfl⟩
  · rintro _ ⟨⟩
    exact ⟨json, plain, rfl, whole, openText_text twelve held⟩

/-- What a recorder with a ring may show of a masked value is recoverable. -/
theorem Policy.Shows.recovers {value : Option Json} {shown : Option String}
    (seen : policy.Shows (some ring.sealText) property (value.getD .null) shown)
    (active : ring.active ∈ ring.keyIds) (masked : policy.isMasked property = true) :
    ring.Recovers property value shown := by
  generalize same : value.getD .null = json at seen
  cases seen with
  | null => exact Keyring.recovers_none_null same
  | plain unmasked | cut unmasked =>
    rw [masked] at unmasked
    nomatch unmasked
  | hidden _ whole unsealed =>
    -- the ring has its active key, so it does not fail
    obtain ⟨nonce, e, failed⟩ := unsealed _ rfl
    obtain ⟨text, sealed⟩ := Keyring.exists_sealText active nonce property _
    rw [sealed] at failed
    nomatch failed
  | sealed _ whole given twelve sealed =>
    cases given
    rw [← same] at whole
    exact Keyring.recovers_sealText active whole twelve sealed

theorem Transition.recovered_of_active (verbose : policy.verbose = true)
    (active : ring.active ∈ ring.keyIds) (transition : Transition) (actor : Option String)
    (now : Instant) (record : Record) (supply : Supply) :
    transition.Recovered policy ring record
      (transition.events policy (some ring.sealText) actor now record supply).1 where
  reported := by rw [transition.property_events verbose, transition.property_changes]
  oldValue := by
    intro e member property named masked
    have reports := transition.reports_of_mem verbose member named
    exact reports.oldValue.recovers active masked
  newValue := by
    intro e member property named masked
    have reports := transition.reports_of_mem verbose member named
    exact reports.newValue.recovers active masked

end

/-- **Masked values stay recoverable.** A recorder that seals with a key ring, whatever calls the
ring has taken, and a verbose policy, however short it cuts values, show of each masked property
that changes what the ring opens to the whole text of its value; a side is absent exactly where the
property has no value, or null. -/
theorem Transition.masked_recovered {policy : Policy} (verbose : policy.verbose = true)
    (keyId : String) (key : Cipher.Key) (calls : List Keyring.Call) (transition : Transition)
    (actor : Option String) (now : Instant) (record : Record) (supply : Supply) :
    transition.Recovered policy ((Keyring.new keyId key).after calls) record
      (transition.events policy (some ((Keyring.new keyId key).after calls).sealText) actor now
        record supply).1 := by
  have first : (Keyring.new keyId key).active ∈ (Keyring.new keyId key).keyIds :=
    List.mem_cons_self
  exact recovered_of_active verbose (Keyring.active_after calls first) transition actor now record
    supply

/-- A user takes a password, after the ring turned to a second key; of other values the policy shows
nothing but that they are there. -/
theorem Transition.masked_recovered_rotated : ∃ (policy : Policy) (key next : Cipher.Key)
    (calls : List Keyring.Call) (record : Record) (previous : Snapshot) (text : String),
    policy.verbose = true ∧ policy.truncateLength = some 0 ∧
      calls = [.withKey "k2" next, .rotateTo "k2"] ∧
      (update previous).Recovered policy ((Keyring.new "k1" key).after calls) record
        ((update previous).events policy (some ((Keyring.new "k1" key).after calls).sealText) none
          .epoch record .fresh).1 ∧
      ((update previous).events policy (some ((Keyring.new "k1" key).after calls).sealText) none
          .epoch record .fresh).1.map (fun e => (e.property, e.oldValue, e.newValue)) =
        [(some "password", none, some text)] ∧
      (∃ v, Envelope.parse text = .ok v ∧ v.keyId = "k2") ∧
      ((Keyring.new "k1" key).after calls).openText "password" text = .ok "open sesame" := by
  let policy : Policy := { Policy.standard with verbose := true, truncateLength := some 0 }
  let key : Cipher.Key := ⟨List.replicate 32 0x42, rfl⟩
  let next : Cipher.Key := ⟨List.replicate 32 0x7A, rfl⟩
  let calls : List Keyring.Call := [.withKey "k2" next, .rotateTo "k2"]
  let record : Record := ⟨"User", "u1", .ofList [("login", .string "alice"),
    ("password", .string "open sesame")], .empty⟩
  let previous : Snapshot := .ofList [("login", .string "alice"), ("password", .null)]
  have verbose : policy.verbose = true := rfl
  have recovered := Transition.masked_recovered verbose "k1" key calls (update previous) none .epoch
    record .fresh
  have named : policy.changedProperties ((update previous).before record.snapshot)
      ((update previous).after record.snapshot) = ["password"] := by decide
  have single := recovered.reported
  rw [named] at single
  obtain ⟨e, listed, property⟩ := List.map_eq_singleton_iff.1 single
  have member : e ∈ [e] := List.mem_cons_self
  rw [← listed] at member
  have old := recovered.oldValue e member "password" property rfl
  have new := recovered.newValue e member "password" property rfl
  have absent : e.oldValue = none := old.absent.2 (.inr rfl)
  obtain ⟨text, shown⟩ : ∃ text, e.newValue = some text := by
    apply Option.ne_none_iff_exists'.1
    intro none
    rcases new.absent.1 none with missing | null
    · nomatch missing
    · nomatch null
  obtain ⟨json, plain, value, whole, opened⟩ := new.opened text shown
  cases value
  obtain rfl : plain = "open sesame" := by
    cases whole with
    | string => rfl
    | written _ other => exact absurd rfl (other _)
  refine ⟨policy, key, next, calls, record, previous, text, verbose, rfl, rfl, recovered,
    ?_, new.sealed text shown, opened⟩
  rw [listed, List.map_singleton, property, absent, shown]

end ChangeAudit
