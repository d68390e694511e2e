import ChangeAudit.Trail

/-!
# A trail with its open transactions

A `Workspace` is a trail and the transactions that are open on it, by name. A `Call` is one thing
that a host does with it; `step` runs a call and answers how many events it kept, delivered or
dropped. A call that names no open transaction of its own does nothing.
-/

namespace ChangeAudit

/-- A trail and its open transactions. -/
structure Workspace (σ : Type) where
  trail : Trail σ
  transactions : OrderedMap String Transaction

/-- One thing that a host does. -/
inductive Call where
  | register (entityType : String) (options : Registration)
  | configure (files : FileArea) (operation : PolicyStore.Operation)
  /-- Begins a transaction; an open one of that name is dropped. -/
  | begin (name : String)
  /-- Records a transition, in the named transaction or directly. -/
  | record (name : Option String) (now : Instant) (record : Record) (transition : Transition)
  | commit (name : String)
  | rollback (name : String)
  | drop (name : String)

namespace Workspace

variable {σ : Type}

/-- The workspace of a trail without open transactions. -/
def new (trail : Trail σ) : Workspace σ := ⟨trail, .empty⟩

/-- The number of events that wait in a transaction, if it is open. -/
def pending? (w : Workspace σ) (name : String) : Option Nat :=
  (w.transactions.get? name).map fun x => x.pending.length

/-- The workspace with a transaction and the trail after a call. -/
def update (w : Workspace σ) (name : String) (x : Transaction) (trail : Trail σ) : Workspace σ :=
  { w with trail := trail, transactions := w.transactions.insert name x }

/-- The workspace without a transaction. -/
def close (w : Workspace σ) (name : String) : Workspace σ :=
  { w with transactions := w.transactions.erase name }

variable [EventSink σ]

/-- Runs a call. -/
def step (w : Workspace σ) : Call → Workspace σ × Except Fault Nat
  | .register entityType options =>
    ({ w with trail := w.trail.register entityType options }, .ok 0)
  | .configure files operation =>
    let (store, answer) := w.trail.store.step files operation
    ({ w with trail := { w.trail with store := store } },
      match answer with
      | .ok _ => .ok 0
      | .error e => .error (.policy e))
  | .begin name => ({ w with transactions := w.transactions.insert name .empty }, .ok 0)
  | .record none now record transition =>
    let (trail, answer) := w.trail.record now record transition
    ({ w with trail := trail }, answer)
  | .record (some name) now record transition =>
    match w.transactions.get? name with
    | none => (w, .ok 0)
    | some x =>
      let (x, trail, answer) := x.record w.trail now record transition
      (w.update name x trail, answer)
  | .commit name =>
    match w.transactions.get? name with
    | none => (w, .ok 0)
    | some x =>
      let (x, trail, answer) := x.commit w.trail
      (w.update name x trail, answer)
  | .rollback name =>
    match w.transactions.get? name with
    | none => (w, .ok 0)
    | some x => (w.close name, .ok x.rollback)
  | .drop name => (w.close name, .ok 0)

/-- Runs calls one after the other, whether they succeed or not. -/
def run (w : Workspace σ) (calls : List Call) : Workspace σ :=
  calls.foldl (fun w c => (w.step c).1) w

end Workspace

end ChangeAudit
