import ChangeAudit.Proofs.Instant
import ChangeAudit.Proofs.Transition.Exchange

/-!
# Ignored properties have no influence

Two runs of a recorder whose records and previous snapshots differ in ignored properties only record
the same events, ids apart, and draw the same nonces (`Transition.events_ignoring`): ignored
properties may be added, removed or changed, and stand anywhere between the others
(`Policy.AgreeWatched`). What is left of such snapshots without the ignored properties is the same
list, and nothing else is compared, summed up or sealed.
-/

namespace ChangeAudit

/-- The same properties with the same values in the same order, but for ignored ones that stand
anywhere between them on either side. -/
inductive Policy.AgreeWatched (policy : Policy) :
    List (String × Json) → List (String × Json) → Prop where
  | nil : AgreeWatched policy [] []
  | both {a b : List (String × Json)} (p : String × Json) (rest : AgreeWatched policy a b) :
      AgreeWatched policy (p :: a) (p :: b)
  | left {a b : List (String × Json)} {p : String × Json}
      (ignored : policy.isIgnored p.1 = true) (rest : AgreeWatched policy a b) :
      AgreeWatched policy (p :: a) b
  | right {a b : List (String × Json)} {p : String × Json}
      (ignored : policy.isIgnored p.1 = true) (rest : AgreeWatched policy a b) :
      AgreeWatched policy a (p :: b)

/-- The same transition, from previous snapshots that differ in ignored properties only. -/
inductive Transition.AgreeWatched (policy : Policy) : Transition → Transition → Prop where
  | insert : AgreeWatched policy .insert .insert
  | delete : AgreeWatched policy .delete .delete
  | update {old old' : Snapshot} (previous : policy.AgreeWatched old.entries old'.entries) :
      AgreeWatched policy (.update old) (.update old')

/-! ## What is left without ignored properties -/

section Watched

variable {policy : Policy}

theorem Policy.watched_cons (p : String × Json) (a : List (String × Json)) :
    policy.watched (p :: a) =
      if policy.isIgnored p.1 then policy.watched a else p :: policy.watched a := by
  rw [watched, List.filter_cons]
  cases policy.isIgnored p.1 <;> rfl

/-- Snapshots agree exactly if the same is left of them without ignored properties. -/
theorem Policy.agreeWatched_iff {a b : List (String × Json)} :
    policy.AgreeWatched a b ↔ policy.watched a = policy.watched b := by
  constructor
  · intro agree
    induction agree with
    | nil => rfl
    | both p rest same => rw [watched_cons, watched_cons, same]
    | left ignored rest same => rw [watched_cons, if_pos ignored, same]
    | right ignored rest same => rw [watched_cons, if_pos ignored, same]
  · intro same
    induction a generalizing b with
    | nil =>
      induction b with
      | nil => exact .nil
      | cons q b ih =>
        rw [watched_cons] at same
        split at same
        · next ignored => exact .right ignored (ih same)
        · nomatch same
    | cons p a ih =>
      rw [watched_cons] at same
      split at same
      · next ignored => exact .left ignored (ih same)
      · next watched =>
        -- the property stands on the other side behind ignored ones
        induction b with
        | nil => nomatch same
        | cons q b ihb =>
          rw [watched_cons] at same
          split at same
          · next ignored => exact .right ignored (ihb same)
          · obtain ⟨rfl, rest⟩ := List.cons.inj same
            exact .both p (ih rest)

theorem Transition.AgreeWatched.changes {t u : Transition} (agree : t.AgreeWatched policy u)
    {a b : Snapshot} (current : policy.AgreeWatched a.entries b.entries) :
    t.changes policy a = u.changes policy b := by
  have after := Policy.agreeWatched_iff.1 current
  cases agree with
  | insert => rw [Transition.changes, Transition.changes, after]
  | delete => rw [Transition.changes, Transition.changes, after]
  | update previous =>
    rw [Transition.changes, Transition.changes, after, Policy.agreeWatched_iff.1 previous]

theorem Transition.AgreeWatched.kind {t u : Transition} (agree : t.AgreeWatched policy u) :
    t.kind = u.kind := by
  cases agree <;> rfl

end Watched

/-! ## What is drawn -/

section Drawn

variable {policy : Policy} {sealer : Option Sealer} {s t : Supply}

theorem Occasion.withoutId_event (o : Occasion) (id other : String)
    (property old new : Option String) :
    (o.event id property old new).withoutId = (o.event other property old new).withoutId :=
  rfl

/-- Events of the same changes differ in their ids only and draw the same nonces, if they start at
the same nonce. -/
theorem changeEvents_sealings (o : Occasion) (changes : List Change)
    (same : s.sealings = t.sealings) :
    (changeEvents policy sealer o changes s).1.map Event.withoutId =
        (changeEvents policy sealer o changes t).1.map Event.withoutId ∧
      (changeEvents policy sealer o changes s).2.sealings =
        (changeEvents policy sealer o changes t).2.sealings := by
  induction changes generalizing s t with
  | nil => exact ⟨rfl, same⟩
  | cons c changes ih =>
    obtain ⟨old, afterOld⟩ := showValue_sealings policy sealer c.property c.old same
    obtain ⟨new, afterNew⟩ := showValue_sealings policy sealer c.property c.new afterOld
    obtain ⟨events, left⟩ := @ih (Supply.eventId _).2 (Supply.eventId _).2 afterNew
    rw [changeEvents, changeEvents, List.map_cons, List.map_cons]
    refine ⟨congrArg₂ List.cons ?_ events, left⟩
    rw [old, new]
    exact o.withoutId_event _ _ _ _ _

/-- A summary seals nothing. -/
theorem Transition.sealings_quiet (transition : Transition) (quiet : policy.verbose = false)
    (actor : Option String) (now : Instant) (record : Record) (supply : Supply) :
    (transition.events policy sealer actor now record supply).2.sealings = supply.sealings := by
  simp only [events, quiet, Bool.false_eq_true, if_false]
  split <;> rfl

end Drawn

/-- **Ignored properties have no influence.** Two runs of a recorder whose records and previous
snapshots agree but for ignored properties record the same events, ids apart, and draw the same
nonces, whatever the policy, the transition and the sealer are. -/
theorem Transition.events_ignoring {policy : Policy} (sealer : Option Sealer) {a b : Record}
    (sameType : a.entityType = b.entityType) (sameId : a.id = b.id)
    (current : policy.AgreeWatched a.snapshot.entries b.snapshot.entries) {t u : Transition}
    (agree : t.AgreeWatched policy u) (actor : Option String) (now : Instant) {s s' : Supply}
    (sameNonce : s.sealings = s'.sealings) :
    (t.events policy sealer actor now a s).1.map Event.withoutId =
        (u.events policy sealer actor now b s').1.map Event.withoutId ∧
      (t.events policy sealer actor now a s).2.sealings =
        (u.events policy sealer actor now b s').2.sealings := by
  have changes := agree.changes current
  have occasion : t.occasion actor now a = u.occasion actor now b := by
    rw [Transition.occasion, Transition.occasion, agree.kind, sameType, sameId]
  cases verbose : policy.verbose with
  | true =>
    rw [t.events_verbose verbose, u.events_verbose verbose, occasion, changes]
    exact changeEvents_sealings _ _ sameNonce
  | false =>
    rw [t.sealings_quiet verbose, u.sealings_quiet verbose]
    refine ⟨?_, sameNonce⟩
    rw [t.events_quiet verbose, u.events_quiet verbose, occasion, changes, agree.kind]

/-- A user changes name and password, in two runs with versions and times of their own in
between. -/
theorem Transition.events_ignoring_versions : ∃ (policy : Policy) (sealer : Option Sealer)
    (a b : Record) (old old' : Snapshot) (s s' : Supply),
    a.entityType = b.entityType ∧ a.id = b.id ∧
      policy.AgreeWatched a.snapshot.entries b.snapshot.entries ∧
      (update old).AgreeWatched policy (update old') ∧ s.sealings = s'.sealings ∧
      ((update old).events policy sealer none .epoch a s).1.map Event.withoutId =
        ((update old').events policy sealer none .epoch b s').1.map Event.withoutId ∧
      ((update old).events policy sealer none .epoch a s).2.sealings =
        ((update old').events policy sealer none .epoch b s').2.sealings ∧
      ((update old).events policy sealer none .epoch a s).1.map Event.property =
        [some "login", some "password"] ∧
      ((update old).events policy sealer none .epoch a s).2.sealings = 2 ∧
      a.snapshot.get? "version" ≠ b.snapshot.get? "version" := by
  let policy : Policy := { Policy.standard with verbose := true }
  let sealer : Option Sealer := some fun _ _ plain => .ok plain
  let a : Record := ⟨"User", "u1", .ofList [("version", .nat 2), ("login", .string "alice"),
    ("password", .string "sesame"), ("lastUpdated", .string "today")], .empty⟩
  let b : Record := ⟨"User", "u1", .ofList [("login", .string "alice"), ("version", .nat 9),
    ("password", .string "sesame")], .empty⟩
  let old : Snapshot := .ofList [("password", .string "abc"), ("login", .string "al")]
  let old' : Snapshot := .ofList [("lastUpdatedBy", .string "bob"), ("password", .string "abc"),
    ("version", .nat 8), ("login", .string "al")]
  have current : policy.AgreeWatched a.snapshot.entries b.snapshot.entries :=
    Policy.agreeWatched_iff.2 rfl
  have agree : (update old).AgreeWatched policy (update old') :=
    .update (Policy.agreeWatched_iff.2 rfl)
  have sameType : a.entityType = b.entityType := rfl
  have sameId : a.id = b.id := rfl
  have sameNonce : (Supply.mk 0 0).sealings = (Supply.mk 7 0).sealings := rfl
  obtain ⟨events, nonces⟩ :=
    Transition.events_ignoring sealer sameType sameId current agree none .epoch sameNonce
  refine ⟨policy, sealer, a, b, old, old', ⟨0, 0⟩, ⟨7, 0⟩, sameType, sameId, current, agree,
    sameNonce, events, nonces, ?_, ?_, ?_⟩
  · rw [Transition.property_events _ rfl]
    rfl
  · decide
  · decide

end ChangeAudit
