import ChangeAudit.Proofs.Gate
import Mathlib.Data.List.Forall2

/-!
# Which handlers are asked

A gate is used event by event or batch by batch. An event stops at the first slot whose handler
suppresses it (`Stops`), so a slot is asked about an event when the slots before it do not stop it
(`Reaches`). From this the answers of a gate and the counters of its slots can be told from the
handlers alone, over any uses (`uses_tallied`). A handler that fails counts for nothing but its own
failures: one that lets the event pass instead gives the same answers (`Mends`).
-/

namespace ChangeAudit

/-- The handler gives no decision about the event. -/
def Handler.Fails (h : Handler) (e : Event) : Prop :=
  h.handle e = .failed ∨ h.handle e = .crashed

instance (h : Handler) (e : Event) : Decidable (h.Fails e) :=
  inferInstanceAs (Decidable (_ ∨ _))

/-- The second handler decides like the first, but may let an event pass where the first fails. -/
def Handler.Mends (h mended : Handler) : Prop :=
  ∀ e, mended.handle e = h.handle e ∨ h.Fails e ∧ mended.handle e = .decided .pass

namespace Gate

/-- Some handler suppresses the event. -/
def Stops (hs : List Handler) (e : Event) : Prop := ∃ h ∈ hs, h.handle e = .decided .suppress

instance (hs : List Handler) (e : Event) : Decidable (Stops hs e) :=
  inferInstanceAs (Decidable (∃ h ∈ hs, _))

/-- No handler before slot `i` suppresses the event. -/
def Reaches (hs : List Handler) (i : Nat) (e : Event) : Prop := ¬ Stops (hs.take i) e

instance (hs : List Handler) (i : Nat) (e : Event) : Decidable (Reaches hs i e) :=
  inferInstanceAs (Decidable (¬ _))

/-- A use of a gate: a single event, or a batch to keep the passing events of. -/
inductive Use where
  | process (e : Event)
  | filter (es : List Event)

/-- What a gate answers to a use. -/
inductive Reply where
  | decided (decision : Decision)
  | kept (events : List Event)
  deriving DecidableEq

/-- The events of a use, in order. -/
def Use.events : Use → List Event
  | .process e => [e]
  | .filter es => es

/-- The answer to a use, and the gate after it. -/
def use (c : Gate) : Use → Reply × Gate
  | .process e => (.decided (c.process e).1, (c.process e).2)
  | .filter es => (.kept (c.filter es).1, (c.filter es).2)

/-- The answers to uses one after the other, and the gate after them. -/
def useAll (c : Gate) : List Use → List Reply × Gate
  | [] => ([], c)
  | u :: us => ((c.use u).1 :: ((c.use u).2.useAll us).1, ((c.use u).2.useAll us).2)

/-- The answer that handlers give to a use. -/
def answer (hs : List Handler) : Use → Reply
  | .process e => .decided (if Stops hs e then .suppress else .pass)
  | .filter es => .kept (es.filter fun e => ¬ Stops hs e)

/-- Slot `i` after events: it was asked once about each that reached it and about no other one, and
failed as often as its handler did. -/
def tally (hs : List Handler) (es : List Event) (i : Nat) (h : Handler) : Slot where
  handler := h
  calls := es.countP fun e => Reaches hs i e
  failures := es.countP fun e => Reaches hs i e ∧ h.Fails e

/-- The slots of a gate count what its handlers were asked about. -/
def Tallied (hs : List Handler) (es : List Event) (c : Gate) : Prop :=
  ∀ i : Nat, c.slots[i]? = hs[i]?.map (tally hs es i)

/-! ## One event -/

theorem suppresses_eq_true_iff {o : Outcome} : o.suppresses = true ↔ o = .decided .suppress := by
  cases o with
  | decided d => cases d <;> simp [Outcome.suppresses]
  | failed => simp [Outcome.suppresses]
  | crashed => simp [Outcome.suppresses]

theorem isFailure_eq_true_iff {h : Handler} {e : Event} :
    (h.handle e).isFailure = true ↔ h.Fails e := by
  unfold Handler.Fails
  cases h.handle e <;> simp [Outcome.isFailure]

theorem stops_cons {h : Handler} {hs : List Handler} {e : Event} :
    Stops (h :: hs) e ↔ h.handle e = .decided .suppress ∨ Stops hs e := by
  simp [Stops]

theorem suppresses_iff_stops {c : Gate} {e : Event} :
    c.suppresses e = true ↔ Stops c.handlers e := by
  simp only [suppresses, List.any_eq_true, suppresses_eq_true_iff, Stops]

/-- Asking about an event changes the slots that it reaches, and no other one. -/
theorem getElem?_processSlots (e : Event) (slots : List Slot) (i : Nat) :
    (processSlots e slots).2[i]? =
      slots[i]?.map fun s => if Reaches (slots.map Slot.handler) i e then s.asked e else s := by
  induction slots generalizing i with
  | nil => rfl
  | cons s slots ih =>
    rw [List.map_cons]
    cases i with
    | zero =>
      have reached : Reaches (s.handler :: slots.map Slot.handler) 0 e := by simp [Reaches, Stops]
      cases stopped : (s.handler.handle e).suppresses <;> simp [processSlots, stopped, reached]
    | succ i =>
      have front : Reaches (s.handler :: slots.map Slot.handler) (i + 1) e ↔
          (s.handler.handle e).suppresses = false ∧ Reaches (slots.map Slot.handler) i e := by
        rw [Reaches, List.take_succ_cons, stops_cons, not_or, ← suppresses_eq_true_iff,
          Bool.not_eq_true, Reaches]
      cases stopped : (s.handler.handle e).suppresses with
      | true => simp [processSlots, stopped, front]
      | false => simp [processSlots, stopped, front, ih]

theorem tally_append (hs : List Handler) (es : List Event) (e : Event) (i : Nat) (h : Handler) :
    tally hs (es ++ [e]) i h =
      if Reaches hs i e then (tally hs es i h).asked e else tally hs es i h := by
  simp only [tally, Slot.asked, isFailure_eq_true_iff, List.countP_append, List.countP_singleton]
  by_cases reached : Reaches hs i e <;> simp [reached]

theorem Tallied.handlers {hs : List Handler} {es : List Event} {c : Gate} (h : Tallied hs es c) :
    c.handlers = hs := by
  apply List.ext_getElem?
  intro i
  rw [Gate.handlers, List.getElem?_map, h i, Option.map_map]
  exact Option.map_id'

/-- One more event is counted where it is asked about. -/
theorem Tallied.process {hs : List Handler} {es : List Event} {c : Gate} (h : Tallied hs es c)
    (e : Event) : Tallied hs (es ++ [e]) (c.process e).2 := by
  intro i
  have step := getElem?_processSlots e c.slots i
  rw [show c.slots.map Slot.handler = hs from h.handlers, h i, Option.map_map] at step
  refine step.trans ?_
  congr 1
  funext handler
  exact (tally_append hs es e i handler).symm

/-! ## Uses one after the other -/

theorem Tallied.filter {hs : List Handler} {es : List Event} {c : Gate} (h : Tallied hs es c)
    (more : List Event) : Tallied hs (es ++ more) (c.filter more).2 := by
  induction more generalizing es c with
  | nil => rwa [List.append_nil]
  | cons e more ih =>
    have rest := ih (h.process e)
    rwa [List.append_assoc] at rest

theorem Tallied.use {hs : List Handler} {es : List Event} {c : Gate} (h : Tallied hs es c)
    (u : Use) : Tallied hs (es ++ u.events) (c.use u).2 := by
  cases u with
  | process e => exact h.process e
  | filter more => exact h.filter more

theorem Tallied.useAll {hs : List Handler} {es : List Event} {c : Gate} (h : Tallied hs es c)
    (uses : List Use) : Tallied hs (es ++ uses.flatMap Use.events) (c.useAll uses).2 := by
  induction uses generalizing es c with
  | nil => rwa [List.flatMap_nil, List.append_nil]
  | cons u uses ih =>
    have rest := ih (h.use u)
    rwa [List.append_assoc] at rest

theorem tallied_ofHandlers (hs : List Handler) : Tallied hs [] (ofHandlers hs) := by
  intro i
  rw [ofHandlers, List.getElem?_map]
  rfl

/-- What a gate answers depends on its handlers alone. -/
theorem use_reply (c : Gate) (u : Use) : (c.use u).1 = answer c.handlers u := by
  cases u with
  | process e => simp only [use, process_decision, suppresses_iff_stops, answer]
  | filter es =>
    simp only [use, filter_kept, answer]
    congr 1
    apply List.filter_congr
    intro e _
    rw [Bool.eq_iff_iff, Bool.not_eq_true', ← Bool.not_eq_true, suppresses_iff_stops]
    simp

theorem useAll_replies {hs : List Handler} {es : List Event} {c : Gate} (h : Tallied hs es c)
    (uses : List Use) : (c.useAll uses).1 = uses.map (answer hs) := by
  induction uses generalizing es c with
  | nil => rfl
  | cons u uses ih =>
    rw [useAll, List.map_cons, ih (h.use u), use_reply, h.handlers]

/-! ## Handlers that fail -/

theorem stops_of_mended {hs mended : List Handler} (h : List.Forall₂ Handler.Mends hs mended)
    (e : Event) : Stops mended e ↔ Stops hs e := by
  induction h with
  | nil => exact Iff.rfl
  | cons first _ ih =>
    rw [stops_cons, stops_cons, ih]
    rcases first e with same | ⟨fails | fails, passes⟩
    · rw [same]
    · simp [fails, passes]
    · simp [fails, passes]

theorem answer_of_mended {hs mended : List Handler} (h : List.Forall₂ Handler.Mends hs mended)
    (u : Use) : answer mended u = answer hs u := by
  cases u with
  | process e => simp only [answer, stops_of_mended h]
  | filter es => simp only [answer, stops_of_mended h]

/-- **Who is asked, and what it comes to**: over any uses of a gate, an event is suppressed exactly
when some handler suppresses it, and a batch keeps its other events in order; each slot was asked
once about every event that no earlier handler suppressed and failed as often as its handler did;
and handlers that let events pass where these fail give the same answers. -/
theorem uses_tallied (hs : List Handler) (uses : List Use) :
    ((ofHandlers hs).useAll uses).1 = uses.map (answer hs) ∧
      Tallied hs (uses.flatMap Use.events) ((ofHandlers hs).useAll uses).2 ∧
      ∀ mended, List.Forall₂ Handler.Mends hs mended →
        ((ofHandlers mended).useAll uses).1 = ((ofHandlers hs).useAll uses).1 := by
  have fresh := tallied_ofHandlers hs
  refine ⟨useAll_replies fresh uses, fresh.useAll uses, ?_⟩
  intro mended mends
  rw [useAll_replies fresh, useAll_replies (tallied_ofHandlers mended)]
  exact List.map_congr_left fun u _ => answer_of_mended mends u

/-- Two handlers that always fail around one that suppresses, and the same with the failures mended:
one event alone, then a batch. -/
theorem uses_tallied_past_failures : ∃ (hs mended : List Handler) (uses : List Use),
    List.Forall₂ Handler.Mends hs mended ∧
      (((ofHandlers hs).useAll uses).1 = uses.map (answer hs) ∧
        Tallied hs (uses.flatMap Use.events) ((ofHandlers hs).useAll uses).2 ∧
        ((ofHandlers mended).useAll uses).1 = ((ofHandlers hs).useAll uses).1) ∧
      ((ofHandlers hs).useAll uses).2.calls = [3, 3, 2] ∧
      ((ofHandlers hs).useAll uses).2.failures =
        [("first", 3), ("entity-type-filter", 0), ("last", 2)] := by
  let event (entityType : String) : Event :=
    { id := "e", entityType := entityType, entityId := "1", property := none, oldValue := none,
      newValue := none, kind := .insert, actor := none,
      timestamp := ⟨⟨1970, 1, 1, by decide⟩, 0, 0, by decide, by decide⟩ }
  let hs : List Handler :=
    [⟨"first", fun _ => .failed⟩, .typeFilter ["Session"], ⟨"last", fun _ => .crashed⟩]
  let mended : List Handler :=
    [⟨"first", fun _ => .decided .pass⟩, .typeFilter ["Session"],
      ⟨"last", fun _ => .decided .pass⟩]
  let uses : List Use := [.process (event "Order"), .filter [event "Session", event "Order"]]
  have mends : List.Forall₂ Handler.Mends hs mended :=
    .cons (fun _ => .inr ⟨.inl rfl, rfl⟩)
      (.cons (fun _ => .inl rfl) (.cons (fun _ => .inr ⟨.inr rfl, rfl⟩) .nil))
  have told := uses_tallied hs uses
  exact ⟨hs, mended, uses, mends, ⟨told.1, told.2.1, told.2.2 mended mends⟩, rfl, rfl⟩

end Gate

end ChangeAudit
