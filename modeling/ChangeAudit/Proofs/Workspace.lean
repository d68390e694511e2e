import ChangeAudit.Proofs.OrderedMap
import ChangeAudit.Proofs.Trail.Delivery
import ChangeAudit.Workspace

/-!
# What a call does to a workspace

A call names at most one transaction (`Call.target?`) and changes no other (`erase_step`); it does
nothing if it needs its transaction open and it is not (`step_of_closed`). The trail moves by
observing transitions and by delivering batches (`step_trail_of_not_setup`).
-/

namespace ChangeAudit

/-- The transaction that a call names. -/
def Call.target? : Call → Option String
  | .begin name | .commit name | .rollback name | .drop name => some name
  | .record name _ _ _ => name
  | .register _ _ | .configure _ _ => none

/-- Whether a call changes the setup of the trail: its policies or its registered types. -/
def Call.isSetup : Call → Bool
  | .register _ _ | .configure _ _ => true
  | _ => false

namespace Workspace

variable {σ : Type}

/-- The events that wait in a transaction, if it is open. -/
def waiting? (w : Workspace σ) (name : String) : Option (List Event) :=
  (w.transactions.get? name).map Transaction.pending

/-- The events that wait in a transaction; none if it is not open. -/
def buffer (w : Workspace σ) (name : String) : List Event := (w.waiting? name).getD []

/-- The events that wait in the open transactions. -/
def buffered (w : Workspace σ) : List Event := w.transactions.values.flatMap Transaction.pending

/-- The events that pass the gate in a call. -/
def passed (w : Workspace σ) : Call → List Event
  | .record none now record transition => w.trail.passed now record transition
  | .record (some name) now record transition =>
    if (w.transactions.get? name).isSome then w.trail.passed now record transition else []
  | _ => []

@[simp] theorem trail_update (w : Workspace σ) (name : String) (x : Transaction) (t : Trail σ) :
    (w.update name x t).trail = t := rfl

@[simp] theorem trail_close (w : Workspace σ) (name : String) :
    (w.close name).trail = w.trail := rfl

section Buffers

variable {w : Workspace σ} {name : String} {x : Transaction}

theorem waiting?_of_open (h : w.transactions.get? name = some x) :
    w.waiting? name = some x.pending := by
  simp [waiting?, h]

theorem waiting?_of_closed (h : w.transactions.get? name = none) : w.waiting? name = none := by
  simp [waiting?, h]

theorem buffer_of_open (h : w.transactions.get? name = some x) : w.buffer name = x.pending := by
  simp [buffer, waiting?_of_open h]

theorem buffer_of_closed (h : w.transactions.get? name = none) : w.buffer name = [] := by
  simp [buffer, waiting?_of_closed h]

theorem buffer_congr {v : Workspace σ} (h : v.transactions = w.transactions) :
    v.buffer name = w.buffer name := by
  rw [buffer, buffer, waiting?, waiting?, h]

theorem get?_update (t : Trail σ) (other : String) :
    (w.update name x t).transactions.get? other =
      if name = other then some x else w.transactions.get? other :=
  OrderedMap.get?_insert ..

theorem get?_close (other : String) :
    (w.close name).transactions.get? other =
      if other = name then none else w.transactions.get? other :=
  OrderedMap.get?_erase ..

@[simp] theorem waiting?_update (t : Trail σ) :
    (w.update name x t).waiting? name = some x.pending :=
  waiting?_of_open (by rw [get?_update, if_pos rfl])

@[simp] theorem waiting?_close : (w.close name).waiting? name = none :=
  waiting?_of_closed (by rw [get?_close, if_pos rfl])

theorem buffer_update (t : Trail σ) : (w.update name x t).buffer name = x.pending := by
  simp [buffer]

theorem buffer_close : (w.close name).buffer name = [] := by
  simp [buffer]

theorem passed_of_open (h : w.transactions.get? name = some x) (now : Instant) (record : Record)
    (transition : Transition) :
    w.passed (.record (some name) now record transition) =
      w.trail.passed now record transition := by
  simp [passed, h]

theorem passed_of_closed (h : w.transactions.get? name = none) (now : Instant) (record : Record)
    (transition : Transition) :
    w.passed (.record (some name) now record transition) = [] := by
  simp [passed, h]

end Buffers

variable [EventSink σ] {w : Workspace σ} {name : String} {x : Transaction}

theorem step_record_of_open (h : w.transactions.get? name = some x) (now : Instant)
    (record : Record) (transition : Transition) :
    w.step (.record (some name) now record transition) =
      let recorded := x.record w.trail now record transition
      (w.update name recorded.1 recorded.2.1, recorded.2.2) := by
  simp [step, h]

theorem step_commit_of_open (h : w.transactions.get? name = some x) :
    w.step (.commit name) =
      let committed := x.commit w.trail
      (w.update name committed.1 committed.2.1, committed.2.2) := by
  simp [step, h]

theorem step_rollback_of_open (h : w.transactions.get? name = some x) :
    w.step (.rollback name) = (w.close name, .ok x.rollback) := by
  simp [step, h]

/-- A call that needs its transaction open does nothing if it is not. -/
theorem step_of_closed (h : w.transactions.get? name = none) :
    (∀ now record transition, w.step (.record (some name) now record transition) = (w, .ok 0)) ∧
      w.step (.commit name) = (w, .ok 0) ∧ w.step (.rollback name) = (w, .ok 0) := by
  simp [step, h]

/-- A call changes no transaction but the one that it names. -/
theorem erase_step {call : Call} (own : call.target? = some name) :
    (w.step call).1.transactions.erase name = w.transactions.erase name := by
  cases call with
  | register entityType options => nomatch own
  | configure files operation => nomatch own
  | begin owner =>
    obtain rfl := Option.some.inj own
    exact OrderedMap.erase_insert ..
  | record target now record transition =>
    obtain rfl : target = some name := own
    cases entry : w.transactions.get? name with
    | none => rw [(step_of_closed entry).1]
    | some x =>
      rw [step_record_of_open entry]
      exact OrderedMap.erase_insert ..
  | commit owner =>
    obtain rfl := Option.some.inj own
    cases entry : w.transactions.get? owner with
    | none => rw [(step_of_closed entry).2.1]
    | some x =>
      rw [step_commit_of_open entry]
      exact OrderedMap.erase_insert ..
  | rollback owner =>
    obtain rfl := Option.some.inj own
    cases entry : w.transactions.get? owner with
    | none => rw [(step_of_closed entry).2.2]
    | some x =>
      rw [step_rollback_of_open entry]
      exact OrderedMap.erase_erase ..
  | drop owner =>
    obtain rfl := Option.some.inj own
    exact OrderedMap.erase_erase ..

theorem transactions_step {call : Call} (none : call.target? = none) :
    (w.step call).1.transactions = w.transactions := by
  cases call with
  | register entityType options => rfl
  | configure files operation => rfl
  | record target now record transition =>
    obtain rfl : target = Option.none := none
    rfl
  | _ => nomatch none

/-- What waits in a transaction changes in calls that name it only. -/
theorem waiting?_step_of_ne {call : Call} (other : call.target? ≠ some name) :
    (w.step call).1.waiting? name = w.waiting? name := by
  unfold waiting?
  cases target : call.target? with
  | none => rw [transactions_step target]
  | some owner =>
    have ne : name ≠ owner := fun same => other (target.trans (congrArg some same.symm))
    have frame : (w.step call).1.transactions.erase owner = w.transactions.erase owner :=
      erase_step target
    have looked := congrArg (fun m => m.get? name) frame
    simp only [OrderedMap.get?_erase, if_neg ne] at looked
    rw [looked]

theorem buffer_step_of_ne {call : Call} (other : call.target? ≠ some name) :
    (w.step call).1.buffer name = w.buffer name := by
  rw [buffer, waiting?_step_of_ne other, buffer]

/-- What waits in all transactions changes as much as what waits in the named one. -/
theorem count_buffered_step (w : Workspace σ) (call : Call) (own : call.target? = some name) (e : Event) :
    (w.step call).1.buffered.count e + (w.buffer name).count e =
      w.buffered.count e + ((w.step call).1.buffer name).count e := by
  unfold buffered buffer waiting?
  rw [OrderedMap.count_values (w.step call).1.transactions name, erase_step own,
    OrderedMap.count_values w.transactions name]
  omega

/-- The trail moves by observing transitions and by delivering batches, unless a call changes its
setup. -/
theorem step_trail_of_not_setup {P : Trail σ → Prop}
    (observed : ∀ t now record transition, P t → P (t.observe now record transition).1)
    (delivered : ∀ t batch, P t → P (t.deliver batch).1) {call : Call}
    (fixed : call.isSetup = false) (start : P w.trail) : P (w.step call).1.trail := by
  cases call with
  | register entityType options => nomatch fixed
  | configure files operation => nomatch fixed
  | begin owner => exact start
  | record target now record transition =>
    have recorded : P (w.trail.record now record transition).1 :=
      delivered _ _ (observed _ now record transition start)
    cases target with
    | none => exact recorded
    | some owner =>
      cases entry : w.transactions.get? owner with
      | none =>
        rw [(step_of_closed entry).1]
        exact start
      | some x =>
        rw [step_record_of_open entry, Transaction.record_eq]
        simp only [trail_update]
        split
        · exact observed _ now record transition start
        · exact recorded
  | commit owner =>
    cases entry : w.transactions.get? owner with
    | none =>
      rw [(step_of_closed entry).2.1]
      exact start
    | some x =>
      rw [step_commit_of_open entry]
      simp only [trail_update, Transaction.commit_trail]
      exact delivered _ _ start
  | rollback owner =>
    cases entry : w.transactions.get? owner with
    | none =>
      rw [(step_of_closed entry).2.2]
      exact start
    | some x =>
      rw [step_rollback_of_open entry]
      exact start
  | drop owner => exact start

end Workspace

end ChangeAudit
