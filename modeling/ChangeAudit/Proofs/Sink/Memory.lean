import ChangeAudit.Sink
import Mathlib.Data.List.DropRight

/-!
# What a memory sink keeps

A memory sink drops the oldest events batch by batch, yet holds what one cut at the end would leave:
the latest events of all that were emitted since it was last cleared (`MemorySink.run_keeps`). One
lemma about lists carries this: of the latest entries and some more, the latest are those of the
whole (`latestOf_append`).
-/

namespace ChangeAudit

/-- The last entries of a list, as many as a capacity allows; a capacity of zero is no limit. -/
def latestOf {α : Type} (capacity : Nat) (entries : List α) : List α :=
  if capacity = 0 then entries else entries.rtake capacity

theorem latestOf_zero {α : Type} (entries : List α) : latestOf 0 entries = entries := rfl

theorem latestOf_pos {α : Type} {capacity : Nat} (limited : 0 < capacity) (entries : List α) :
    latestOf capacity entries = entries.drop (entries.length - capacity) := by
  rw [latestOf, if_neg (Nat.ne_of_gt limited), List.rtake]

theorem latestOf_nil {α : Type} (capacity : Nat) : latestOf capacity ([] : List α) = [] := by
  rw [latestOf, List.rtake_nil, ite_self]

/-- Entries that were dropped before are not among the latest afterwards either. -/
theorem latestOf_append {α : Type} (capacity : Nat) (entries more : List α) :
    latestOf capacity (latestOf capacity entries ++ more) = latestOf capacity (entries ++ more) := by
  rcases Nat.eq_zero_or_pos capacity with rfl | limited
  · rfl
  · simp only [latestOf_pos limited]
    have kept : entries.length - capacity ≤ entries.length := Nat.sub_le _ _
    rw [← List.drop_append_of_le_length kept, List.drop_drop]
    congr 1
    simp only [List.length_drop, List.length_append]
    omega

theorem length_latestOf_le {α : Type} {capacity : Nat} (limited : capacity ≠ 0)
    (entries : List α) : (latestOf capacity entries).length ≤ capacity := by
  rw [latestOf_pos (Nat.pos_of_ne_zero limited), List.length_drop]
  omega

namespace MemorySink

/-- A call that changes what a sink holds. -/
inductive Call where
  | emit (batch : List Event)
  | clear

/-- Whether a call emits a batch. -/
def Call.isEmit : Call → Bool
  | .emit _ => true
  | .clear => false

/-- The events that a call emits. -/
def Call.events : Call → List Event
  | .emit batch => batch
  | .clear => []

/-- The sink after a call. -/
def step (s : MemorySink) : Call → MemorySink
  | .emit batch => s.emit batch
  | .clear => s.clear

/-- The sink after calls one after the other. -/
def run (s : MemorySink) (calls : List Call) : MemorySink := calls.foldl step s

/-- The events of the batches emitted since the last clear, in order. -/
def emitted (calls : List Call) : List Event := (calls.rtakeWhile Call.isEmit).flatMap Call.events

theorem emitted_concat_emit (calls : List Call) (batch : List Event) :
    emitted (calls ++ [.emit batch]) = emitted calls ++ batch := by
  rw [emitted, List.rtakeWhile_concat_pos _ _ _ rfl, List.flatMap_append, List.flatMap_singleton]
  rfl

theorem emitted_concat_clear (calls : List Call) : emitted (calls ++ [.clear]) = [] := by
  rw [emitted, List.rtakeWhile_concat_neg _ _ _ (by decide), List.flatMap_nil]

/-- The sink has this capacity and holds the latest of these events. -/
structure Holds (limit : Nat) (history : List Event) (s : MemorySink) : Prop where
  capacity : s.capacity = limit
  events : s.events = latestOf limit history

theorem events_emit (s : MemorySink) (batch : List Event) :
    (s.emit batch).events = latestOf s.capacity (s.events ++ batch) := by
  rw [emit]
  split
  · next full => exact (latestOf_pos full.1 _).symm
  · next fits =>
    rcases Nat.eq_zero_or_pos s.capacity with none | limited
    · rw [none, latestOf_zero]
    · have short : (s.events ++ batch).length - s.capacity = 0 := by omega
      rw [latestOf_pos limited, short, List.drop_zero]

theorem Holds.emit {limit : Nat} {history : List Event} {s : MemorySink}
    (holds : s.Holds limit history) (batch : List Event) :
    (s.emit batch).Holds limit (history ++ batch) where
  capacity := holds.capacity
  events := by rw [events_emit, holds.capacity, holds.events, latestOf_append]

theorem Holds.clear {limit : Nat} {history : List Event} {s : MemorySink}
    (holds : s.Holds limit history) : s.clear.Holds limit [] where
  capacity := holds.capacity
  events := (latestOf_nil limit).symm

theorem run_holds (capacity : Nat) (calls : List Call) :
    ((new capacity).run calls).Holds capacity (emitted calls) := by
  induction calls using List.reverseRecOn with
  | nil => exact ⟨rfl, (latestOf_nil capacity).symm⟩
  | append_singleton calls call ih =>
    rw [run, List.foldl_concat]
    cases call with
    | emit batch =>
      rw [emitted_concat_emit]
      exact ih.emit batch
    | clear =>
      rw [emitted_concat_clear]
      exact ih.clear

/-- What a sink of a capacity shows after the events of a history were emitted. -/
structure Keeps (capacity : Nat) (history : List Event) (s : MemorySink) : Prop where
  all : s.all = latestOf capacity history
  count : s.count = s.all.length
  bounded : capacity ≠ 0 → s.count ≤ capacity
  latest : ∀ limit, s.latest limit = s.all.reverse.take limit

/-- **A memory sink keeps the latest events**: after any calls it holds the last events of all that
were emitted since it was last cleared, however they came in batches, and never more than its
capacity if that is a limit. -/
theorem run_keeps (capacity : Nat) (calls : List Call) :
    Keeps capacity (emitted calls) ((new capacity).run calls) where
  all := (run_holds capacity calls).events
  count := rfl
  bounded limited := by
    rw [count, (run_holds capacity calls).events]
    exact length_latestOf_le limited _
  latest _ := rfl

end MemorySink

end ChangeAudit
