import ChangeAudit.Proofs.Trail.Conservation
import Mathlib.Data.List.Pairwise
import Mathlib.Data.List.Sort

/-!
# The lane of a transaction

The events that a transaction records are numbered, and cut into stretches at the calls that empty
it (`Report.allPostings`). A `Lane` tells where they are: delivered, waiting or dropped. The invariant
(`Lane.Tracks`) is that what waits belongs to the present stretch, and that of this stretch only
events that did not have to wait are delivered; so what a commit delivers comes after them, and every
call of the transaction keeps the delivered events in the order of `Posting.Before`
(`Handles.lane`).
-/

namespace ChangeAudit

/-! ## Recorded events -/

/-- An event that passed the gate in a transaction. -/
structure Posting where
  event : Event
  /-- Its number among the events of the transaction, in the order in which they were recorded. -/
  number : Nat
  /-- How often the transaction had been emptied before. -/
  stretch : Nat
  /-- Whether it had to wait for a commit. -/
  held : Bool
  deriving DecidableEq

/-- The order in which events arrive: stretch by stretch, in each stretch first those that did not
wait, and otherwise as they were recorded. -/
def Posting.Before (p q : Posting) : Prop :=
  p.stretch < q.stretch ∨
    p.stretch = q.stretch ∧
      (p.held = false ∧ q.held = true ∨ p.held = q.held ∧ p.number < q.number)

namespace Report

/-- The events of a call in a transaction, numbered from a first number on. -/
def postings (name : String) (number stretch : Nat) (r : Report) : List Posting :=
  if r.call.target? = some name then
    (r.passed.zipIdx number).map fun e => ⟨e.1, e.2, stretch, r.transactional⟩
  else []

/-- The stretch of a transaction after a call. -/
def nextStretch (name : String) (stretch : Nat) (r : Report) : Nat :=
  if r.empties name then stretch + 1 else stretch

/-- The events of a run in a transaction, in the order in which they were recorded. -/
def allPostings (name : String) (number stretch : Nat) : List Report → List Posting
  | [] => []
  | r :: rs =>
    r.postings name number stretch ++
      allPostings name (number + (r.postings name number stretch).length)
        (r.nextStretch name stretch) rs

variable {name : String} {number stretch : Nat} {r : Report}

theorem event_postings (number stretch : Nat) (own : r.call.target? = some name) :
    (r.postings name number stretch).map Posting.event = r.passed := by
  rw [postings, if_pos own, List.map_map]
  exact List.zipIdx_map_fst number r.passed

/-- Events that are recorded by one call. -/
structure Fresh (number stretch : Nat) (held : Bool) (new : List Posting) : Prop where
  member : ∀ p ∈ new, p.stretch = stretch ∧ p.held = held ∧ number ≤ p.number ∧
    p.number < number + new.length
  numbered : new.Pairwise fun p q => p.number < q.number

theorem fresh_postings (name : String) (number stretch : Nat) (r : Report) :
    Fresh number stretch r.transactional (r.postings name number stretch) := by
  unfold postings
  split
  case isFalse => exact ⟨fun _ absent => (nomatch absent), .nil⟩
  case isTrue =>
    constructor
    · intro p member
      obtain ⟨⟨e, n⟩, listed, rfl⟩ := List.mem_map.1 member
      obtain ⟨low, high, -⟩ := List.mem_zipIdx listed
      rw [List.length_map, List.length_zipIdx]
      exact ⟨rfl, rfl, low, high⟩
    · rw [List.pairwise_map]
      generalize r.passed = events
      induction events generalizing number with
      | nil => exact .nil
      | cons e events ih =>
        rw [List.zipIdx_cons]
        refine .cons ?_ (ih (number + 1))
        intro later member
        exact (List.mem_zipIdx member).1

end Report

/-! ## Lanes -/

/-- Where the recorded events of a transaction are. -/
structure Lane where
  delivered : List Posting
  waiting : List Posting
  dropped : List Posting

namespace Lane

/-- The lane without events. -/
def empty : Lane := ⟨[], [], []⟩

/-- The events of a lane. -/
def postings (lane : Lane) : List Posting := lane.delivered ++ lane.waiting ++ lane.dropped

/-- A lane of the events recorded so far: what waits is of the present stretch, what was delivered
arrived in order and did not wait in this stretch. -/
structure Tracks (lane : Lane) (number stretch : Nat) (buffer : List Event) : Prop where
  buffer : lane.waiting.map Posting.event = buffer
  waiting : ∀ p ∈ lane.waiting, p.held = true ∧ p.stretch = stretch ∧ p.number < number
  recorded : lane.waiting.Pairwise fun p q => p.number < q.number
  delivered : ∀ p ∈ lane.delivered, p.number < number ∧
    (p.stretch < stretch ∨ p.stretch = stretch ∧ p.held = false)
  order : lane.delivered.Pairwise Posting.Before

/-- How a lane comes from another one: what was sent is delivered, what was discarded dropped, and no
event but the new ones is added or lost. -/
structure Grows (lane : Lane) (new : List Posting) (sent discarded : List Event) (next : Lane) :
    Prop where
  delivered : next.delivered.map Posting.event = lane.delivered.map Posting.event ++ sent
  dropped : next.dropped.map Posting.event = lane.dropped.map Posting.event ++ discarded
  postings : next.postings.Perm (lane.postings ++ new)

theorem Grows.refl (lane : Lane) : lane.Grows [] [] [] lane where
  delivered := (List.append_nil _).symm
  dropped := (List.append_nil _).symm
  postings := by rw [List.append_nil]

theorem Grows.trans {lane next last : Lane} {new newer : List Posting}
    {sent sentLater discarded discardedLater : List Event}
    (first : lane.Grows new sent discarded next)
    (second : next.Grows newer sentLater discardedLater last) :
    lane.Grows (new ++ newer) (sent ++ sentLater) (discarded ++ discardedLater) last where
  delivered := by rw [second.delivered, first.delivered, List.append_assoc]
  dropped := by rw [second.dropped, first.dropped, List.append_assoc]
  postings := by
    rw [← List.append_assoc]
    exact second.postings.trans (first.postings.append_right newer)

/-! ### The ways of the events -/

/-- New events wait. -/
def wait (lane : Lane) (new : List Posting) : Lane := { lane with waiting := lane.waiting ++ new }

/-- New events are delivered at once. -/
def deliver (lane : Lane) (new : List Posting) : Lane :=
  { lane with delivered := lane.delivered ++ new }

/-- New events are dropped. -/
def drop (lane : Lane) (new : List Posting) : Lane := { lane with dropped := lane.dropped ++ new }

/-- The events that wait are delivered. -/
def flush (lane : Lane) : Lane := ⟨lane.delivered ++ lane.waiting, [], lane.dropped⟩

/-- The events that wait are dropped. -/
def clear (lane : Lane) : Lane := ⟨lane.delivered, [], lane.dropped ++ lane.waiting⟩

section Ways

variable {lane : Lane} {new : List Posting}

theorem grows_wait : lane.Grows new [] [] (lane.wait new) where
  delivered := (List.append_nil _).symm
  dropped := (List.append_nil _).symm
  postings := by
    simp only [List.perm_iff_count, Lane.postings, wait, List.count_append]
    intro p
    omega

theorem grows_deliver : lane.Grows new (new.map Posting.event) [] (lane.deliver new) where
  delivered := List.map_append
  dropped := (List.append_nil _).symm
  postings := by
    simp only [List.perm_iff_count, Lane.postings, deliver, List.count_append]
    intro p
    omega

theorem grows_drop : lane.Grows new [] (new.map Posting.event) (lane.drop new) where
  delivered := (List.append_nil _).symm
  dropped := List.map_append
  postings := by
    simp only [List.perm_iff_count, Lane.postings, drop, List.count_append]
    intro p
    omega

theorem grows_flush : lane.Grows [] (lane.waiting.map Posting.event) [] lane.flush where
  delivered := List.map_append
  dropped := (List.append_nil _).symm
  postings := by
    simp only [List.perm_iff_count, Lane.postings, flush, List.count_append]
    intro p
    omega

theorem grows_clear : lane.Grows [] [] (lane.waiting.map Posting.event) lane.clear where
  delivered := (List.append_nil _).symm
  dropped := List.map_append
  postings := by
    simp only [List.perm_iff_count, Lane.postings, clear, List.count_append]
    intro p
    omega

variable {number stretch : Nat} {buffer : List Event} (tracked : lane.Tracks number stretch buffer)

include tracked

theorem Tracks.wait (fresh : Report.Fresh number stretch true new) :
    (lane.wait new).Tracks (number + new.length) stretch (buffer ++ new.map Posting.event) where
  buffer := by rw [Lane.wait, List.map_append, tracked.buffer]
  waiting p member := by
    rcases List.mem_append.1 member with earlier | later
    · obtain ⟨held, same, bound⟩ := tracked.waiting p earlier
      exact ⟨held, same, by omega⟩
    · obtain ⟨same, held, -, bound⟩ := fresh.member p later
      exact ⟨held, same, bound⟩
  recorded := by
    refine List.pairwise_append.2 ⟨tracked.recorded, fresh.numbered, ?_⟩
    intro p earlier q later
    have low := (fresh.member q later).2.2.1
    have bound := (tracked.waiting p earlier).2.2
    omega
  delivered p member := by
    obtain ⟨bound, place⟩ := tracked.delivered p member
    exact ⟨by omega, place⟩
  order := tracked.order

theorem Tracks.deliver (fresh : Report.Fresh number stretch false new) :
    (lane.deliver new).Tracks (number + new.length) stretch buffer where
  buffer := tracked.buffer
  waiting p member := by
    obtain ⟨held, same, bound⟩ := tracked.waiting p member
    exact ⟨held, same, by omega⟩
  recorded := tracked.recorded
  delivered p member := by
    rcases List.mem_append.1 member with earlier | later
    · obtain ⟨bound, place⟩ := tracked.delivered p earlier
      exact ⟨by omega, place⟩
    · obtain ⟨same, held, -, bound⟩ := fresh.member p later
      exact ⟨bound, .inr ⟨same, held⟩⟩
  order := by
    refine List.pairwise_append.2 ⟨tracked.order, ?_, ?_⟩
    · refine fresh.numbered.imp_of_mem ?_
      intro p q inP inQ less
      obtain ⟨stretchP, heldP, -⟩ := fresh.member p inP
      obtain ⟨stretchQ, heldQ, -⟩ := fresh.member q inQ
      exact .inr ⟨stretchP.trans stretchQ.symm, .inr ⟨heldP.trans heldQ.symm, less⟩⟩
    · intro p earlier q later
      obtain ⟨bound, place⟩ := tracked.delivered p earlier
      obtain ⟨same, held, low, -⟩ := fresh.member q later
      rcases place with before | ⟨here, atOnce⟩
      · exact .inl (same.symm ▸ before)
      · exact .inr ⟨here.trans same.symm, .inr ⟨atOnce.trans held.symm, by omega⟩⟩

theorem Tracks.drop : (lane.drop new).Tracks (number + new.length) stretch buffer where
  buffer := tracked.buffer
  waiting p member := by
    obtain ⟨held, same, bound⟩ := tracked.waiting p member
    exact ⟨held, same, by omega⟩
  recorded := tracked.recorded
  delivered p member := by
    obtain ⟨bound, place⟩ := tracked.delivered p member
    exact ⟨by omega, place⟩
  order := tracked.order

/-- Of the stretch that a commit ends, those that did not wait have arrived already. -/
theorem Tracks.flush : lane.flush.Tracks number (stretch + 1) [] where
  buffer := rfl
  waiting _ member := nomatch member
  recorded := .nil
  delivered p member := by
    rcases List.mem_append.1 member with earlier | waited
    · obtain ⟨bound, place⟩ := tracked.delivered p earlier
      exact ⟨bound, .inl (by omega)⟩
    · obtain ⟨-, same, bound⟩ := tracked.waiting p waited
      exact ⟨bound, .inl (by omega)⟩
  order := by
    refine List.pairwise_append.2 ⟨tracked.order, ?_, ?_⟩
    · refine tracked.recorded.imp_of_mem ?_
      intro p q inP inQ less
      obtain ⟨heldP, stretchP, -⟩ := tracked.waiting p inP
      obtain ⟨heldQ, stretchQ, -⟩ := tracked.waiting q inQ
      exact .inr ⟨stretchP.trans stretchQ.symm, .inr ⟨heldP.trans heldQ.symm, less⟩⟩
    · intro p earlier q waited
      obtain ⟨held, same, -⟩ := tracked.waiting q waited
      rcases (tracked.delivered p earlier).2 with before | ⟨here, atOnce⟩
      · exact .inl (same.symm ▸ before)
      · exact .inr ⟨here.trans same.symm, .inl ⟨atOnce, held⟩⟩

theorem Tracks.clear : lane.clear.Tracks number (stretch + 1) [] where
  buffer := rfl
  waiting _ member := nomatch member
  recorded := .nil
  delivered p member := by
    obtain ⟨bound, place⟩ := tracked.delivered p member
    exact ⟨bound, .inl (by omega)⟩
  order := tracked.order

end Ways

end Lane

/-! ## A call -/

/-- What a call of a transaction does with the events: those that it records wait, are delivered or
are refused, or those that wait are delivered or dropped. -/
inductive Handles (name : String) (r : Report) (before after sent : List Event) : Prop
  | waits (stays : r.empties name = false) (mode : r.transactional = true)
      (grown : after = before ++ r.passed) (quiet : sent = []) (kept : r.discarded = [])
  | delivers (stays : r.empties name = false) (mode : r.transactional = false)
      (same : after = before) (taken : sent = r.passed) (kept : r.discarded = [])
  | refuses (stays : r.empties name = false)
      (same : after = before) (quiet : sent = []) (lost : r.discarded = r.passed)
  | flushes (ends : r.empties name = true) (nothing : r.passed = [])
      (emptied : after = []) (taken : sent = before) (kept : r.discarded = [])
  | clears (ends : r.empties name = true) (nothing : r.passed = [])
      (emptied : after = []) (quiet : sent = []) (lost : r.discarded = before)

/-- A lane goes on with a call of its transaction. -/
theorem Handles.lane {name : String} {r : Report} {before after sent : List Event} {lane : Lane}
    {number stretch : Nat} (handled : Handles name r before after sent)
    (own : r.call.target? = some name) (tracked : lane.Tracks number stretch before) :
    ∃ next, lane.Grows (r.postings name number stretch) sent r.discarded next ∧
      next.Tracks (number + (r.postings name number stretch).length)
        (r.nextStretch name stretch) after := by
  have fresh := Report.fresh_postings name number stretch r
  have events := Report.event_postings number stretch own
  cases handled with
  | waits stays mode grown quiet kept =>
    rw [mode] at fresh
    rw [quiet, kept, grown, Report.nextStretch, stays, ← events]
    exact ⟨_, Lane.grows_wait, tracked.wait fresh⟩
  | delivers stays mode same taken kept =>
    rw [mode] at fresh
    rw [taken, kept, same, Report.nextStretch, stays, ← events]
    exact ⟨_, Lane.grows_deliver, tracked.deliver fresh⟩
  | refuses stays same quiet lost =>
    rw [quiet, lost, same, Report.nextStretch, stays, ← events]
    exact ⟨_, Lane.grows_drop, tracked.drop⟩
  | flushes ends nothing emptied taken kept =>
    rw [nothing, List.map_eq_nil_iff] at events
    rw [events, taken, kept, emptied, Report.nextStretch, ends, ← tracked.buffer]
    exact ⟨_, Lane.grows_flush, tracked.flush⟩
  | clears ends nothing emptied quiet lost =>
    rw [nothing, List.map_eq_nil_iff] at events
    rw [events, quiet, lost, emptied, Report.nextStretch, ends, ← tracked.buffer]
    exact ⟨_, Lane.grows_clear, tracked.clear⟩

end ChangeAudit
