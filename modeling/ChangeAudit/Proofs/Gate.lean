import ChangeAudit.Gate

/-!
# What a gate lets pass

Whether an event passes depends on the handlers alone: their counters change with every event, but
no decision reads them (`filter_kept`), and asking changes no handler (`filter_handlers`).
-/

namespace ChangeAudit

/-- A type filter looks at the type of an event and at nothing else. -/
theorem Handler.typeFilter_handle {types : List String} {a b : Event}
    (same : a.entityType = b.entityType) :
    (typeFilter types).handle a = (typeFilter types).handle b := by
  simp only [typeFilter, same]

namespace Gate

/-- The handlers, in the order in which they are asked. -/
def handlers (c : Gate) : List Handler := c.slots.map Slot.handler

/-- Whether a handler suppresses the event. -/
def suppresses (c : Gate) (e : Event) : Bool :=
  c.handlers.any fun h => (h.handle e).suppresses

/-- Handlers that decide alike about two events suppress both or none. -/
theorem suppresses_eq {c : Gate} {a b : Event} (same : ∀ h ∈ c.handlers, h.handle a = h.handle b) :
    c.suppresses a = c.suppresses b := by
  unfold suppresses
  rw [Bool.eq_iff_iff, List.any_eq_true, List.any_eq_true]
  constructor
  · rintro ⟨h, member, stops⟩
    exact ⟨h, member, same h member ▸ stops⟩
  · rintro ⟨h, member, stops⟩
    exact ⟨h, member, (same h member).symm ▸ stops⟩

theorem processSlots_decision (e : Event) (slots : List Slot) :
    (processSlots e slots).1 =
      if slots.any (fun s => (s.handler.handle e).suppresses) then .suppress else .pass := by
  induction slots with
  | nil => rfl
  | cons s slots ih =>
    cases asked : (s.handler.handle e).suppresses with
    | true => simp [processSlots, asked]
    | false => simpa [processSlots, asked] using ih

theorem processSlots_handlers (e : Event) (slots : List Slot) :
    (processSlots e slots).2.map Slot.handler = slots.map Slot.handler := by
  induction slots with
  | nil => rfl
  | cons s slots ih =>
    cases asked : (s.handler.handle e).suppresses with
    | true => simp [processSlots, asked, Slot.asked]
    | false => simpa [processSlots, asked, Slot.asked] using ih

theorem process_decision (c : Gate) (e : Event) :
    (c.process e).1 = if c.suppresses e then .suppress else .pass := by
  rw [suppresses, handlers, List.any_map]
  exact processSlots_decision e c.slots

theorem process_handlers (c : Gate) (e : Event) : (c.process e).2.handlers = c.handlers :=
  processSlots_handlers e c.slots

theorem filter_handlers (c : Gate) (es : List Event) : (c.filter es).2.handlers = c.handlers := by
  induction es generalizing c with
  | nil => rfl
  | cons e es ih =>
    have rest := ih (c.process e).2
    rw [process_handlers] at rest
    exact rest

/-- The gate keeps the events that no handler suppresses. -/
theorem filter_kept (c : Gate) (es : List Event) :
    (c.filter es).1 = es.filter fun e => !c.suppresses e := by
  induction es generalizing c with
  | nil => rfl
  | cons e es ih =>
    have rest := ih (c.process e).2
    simp only [suppresses, process_handlers] at rest
    rw [filter, List.filter_cons]
    simp only [process_decision, rest]
    cases c.suppresses e <;> rfl

end Gate

end ChangeAudit
