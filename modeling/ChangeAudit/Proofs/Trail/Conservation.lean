import ChangeAudit.Proofs.Gate.Invocations
import ChangeAudit.Proofs.Workspace

/-!
# No event is lost or doubled

A run is told by its reports: every call with the events that passed the gate in it, those that it
discarded, and its answer. What passes is said by `Workspace.Passes`: the events of a transition that
is recorded, for a type that is audited, apart from those that a handler suppresses. `run_accounts`
is the law of conservation: after any run the events that passed are those that the sink has accepted
since, those that wait in the open transactions and those that were discarded, each as often as it
was recorded, and what waits in one transaction is what its own calls put there since it was last
emptied, in their order.
-/

namespace ChangeAudit

/-- What became of the events of a call. -/
structure Report where
  call : Call
  /-- The events that passed the gate. -/
  passed : List Event
  /-- The events that are neither delivered nor waiting any more. -/
  discarded : List Event
  /-- Whether the live policy held events back. -/
  transactional : Bool
  answer : Except Fault Nat

namespace Report

/-- Whether the call leaves a transaction empty or closed. -/
def empties (name : String) (r : Report) : Bool :=
  r.call.target? = some name &&
    match r.call with
    | .begin _ | .rollback _ | .drop _ => true
    | .commit _ => r.answer.isOk
    | _ => false

/-- The events that the call puts into a transaction. -/
def held (name : String) (r : Report) : List Event :=
  if r.call.target? = some name ∧ r.transactional then r.passed else []

/-- The events that wait in a transaction after a run: what its calls put there since something last
emptied it. -/
def waiting (name : String) (rs : List Report) : List Event :=
  (rs.reverse.takeWhile fun r => !r.empties name).reverse.flatMap (held name)

theorem waiting_snoc (name : String) (rs : List Report) (r : Report) :
    waiting name (rs ++ [r]) =
      if r.empties name then [] else waiting name rs ++ r.held name := by
  unfold waiting
  rw [List.reverse_append, List.reverse_singleton, List.singleton_append, List.takeWhile_cons]
  cases r.empties name with
  | true => rfl
  | false => simp

end Report

namespace Workspace

variable {σ : Type} [EventSink σ]

/-- The events that a call discards: those that wait in a transaction that is rolled back, dropped
or begun anew, and those that were to be delivered at once and were refused. -/
def discarded (w : Workspace σ) (call : Call) : List Event :=
  match call with
  | .begin name | .rollback name | .drop name => w.buffer name
  | .record _ _ _ _ => if (w.step call).2.isOk then [] else w.passed call
  | _ => []

/-- The events that pass in a call. A transition that is recorded, directly or in an open
transaction, passes its events if the type of its record is registered as audited, without those that
a handler suppresses. -/
inductive Passes (w : Workspace σ) : Call → List Event → Prop where
  | recorded {target : Option String} {now : Instant} {record : Record} {transition : Transition}
      {plan : Option StampPlan} (opened : ∀ name ∈ target, ∃ x, w.transactions.get? name = some x)
      (audited : w.trail.options? record.entityType = some ⟨plan, true⟩) :
      Passes w (.record target now record transition)
        ((transition.events w.trail.store.live.policy w.trail.sealer w.trail.store.live.actor now
          record w.trail.supply).1.filter fun e => ¬ Gate.Stops w.trail.gate.handlers e)
  | unaudited {target : Option String} {now : Instant} {record : Record} {transition : Transition}
      (other : ¬ ∃ plan, w.trail.options? record.entityType = some ⟨plan, true⟩) :
      Passes w (.record target now record transition) []
  | closed {name : String} {now : Instant} {record : Record} {transition : Transition}
      (closed : w.transactions.get? name = none) :
      Passes w (.record (some name) now record transition) []
  | unrecorded {call : Call}
      (other : ∀ target now record transition, call ≠ .record target now record transition) :
      Passes w call []

theorem discarded_of_ok {w : Workspace σ} {target : Option String} {now : Instant}
    {record : Record} {transition : Transition} {n : Nat}
    (h : (w.step (.record target now record transition)).2 = .ok n) :
    w.discarded (.record target now record transition) = [] := by
  simp [discarded, h, Except.isOk, Except.toBool]

theorem discarded_of_error {w : Workspace σ} {target : Option String} {now : Instant}
    {record : Record} {transition : Transition} {e : Fault}
    (h : (w.step (.record target now record transition)).2 = .error e) :
    w.discarded (.record target now record transition) =
      w.passed (.record target now record transition) := by
  simp [discarded, h, Except.isOk, Except.toBool]

/-- The report of a call. -/
def report (w : Workspace σ) (call : Call) : Report where
  call := call
  passed := w.passed call
  discarded := w.discarded call
  transactional := w.trail.store.live.policy.transactional
  answer := (w.step call).2

/-- The reports of a run. -/
def reports (w : Workspace σ) : List Call → List Report
  | [] => []
  | call :: calls => w.report call :: (w.step call).1.reports calls

/-- The reports tell of the calls one by one, each in the state that the calls before it lead to. -/
inductive Told : Workspace σ → List Call → List Report → Prop where
  | nil (w : Workspace σ) : Told w [] []
  | cons {w : Workspace σ} {r : Report} {calls : List Call} {rs : List Report}
      (passes : w.Passes r.call r.passed) (discards : r.discarded = w.discarded r.call)
      (mode : r.transactional = w.trail.store.live.policy.transactional)
      (answers : r.answer = (w.step r.call).2) (rest : Told (w.step r.call).1 calls rs) :
      Told w (r.call :: calls) (r :: rs)

/-! ## Call by call -/

variable {accepted : σ → List Event} (law : AllOrNothing accepted) (w : Workspace σ)

/-- A commit that fails changes no buffer and sends nothing. -/
theorem commit_refused {name : String} {e : Fault} (h : (w.step (.commit name)).2 = .error e) :
    (w.step (.commit name)).1.transactions = w.transactions ∧
      Offered w.trail.sink (w.step (.commit name)).1.trail.sink [] := by
  cases entry : w.transactions.get? name with
  | none =>
    rw [(step_of_closed entry).2.1] at h
    nomatch h
  | some x =>
    rw [step_commit_of_open entry] at h ⊢
    rcases Transaction.commit_offered x w.trail with ⟨done, -⟩ | ⟨refusal, done, left⟩
    · rw [done] at h
      nomatch h
    · rw [done]
      exact ⟨OrderedMap.insert_of_get? entry, left⟩

/-- A commit that succeeds sends what waits, empties the transaction and returns the length. -/
theorem commit_taken {name : String} {n : Nat} (h : (w.step (.commit name)).2 = .ok n) :
    n = (w.buffer name).length ∧ (w.step (.commit name)).1.buffer name = [] ∧
      Offered w.trail.sink (w.step (.commit name)).1.trail.sink (w.buffer name) := by
  cases entry : w.transactions.get? name with
  | none =>
    have closed := buffer_of_closed entry
    rw [(step_of_closed entry).2.1] at h ⊢
    rw [closed]
    exact ⟨(Except.ok.inj h).symm, rfl, .idle rfl rfl⟩
  | some x =>
    rw [buffer_of_open entry]
    rw [step_commit_of_open entry] at h ⊢
    rcases Transaction.commit_offered x w.trail with ⟨done, taken⟩ | ⟨refusal, done, -⟩
    · rw [done] at h ⊢
      exact ⟨(Except.ok.inj h).symm, buffer_update _, taken⟩
    · rw [done] at h
      nomatch h

include law in
/-- A commit that fails changes neither a buffer nor what the sink has accepted. -/
theorem commit_failed {name : String} {e : Fault} (h : (w.step (.commit name)).2 = .error e) :
    (w.step (.commit name)).1.transactions = w.transactions ∧
      accepted (w.step (.commit name)).1.trail.sink = accepted w.trail.sink := by
  obtain ⟨kept, left⟩ := commit_refused w h
  exact ⟨kept, (law.offered left).trans (List.append_nil _)⟩

include law in
/-- A commit that succeeds delivers what waits, empties the transaction and returns the length. -/
theorem commit_succeeded {name : String} {n : Nat} (h : (w.step (.commit name)).2 = .ok n) :
    n = (w.buffer name).length ∧ (w.step (.commit name)).1.buffer name = [] ∧
      accepted (w.step (.commit name)).1.trail.sink = accepted w.trail.sink ++ w.buffer name := by
  obtain ⟨length, emptied, taken⟩ := commit_taken w h
  exact ⟨length, emptied, law.offered taken⟩

/-- A commit offers what waits to the sink in one batch. -/
theorem commit_offers {name : String} (h : w.buffer name ≠ []) :
    (w.step (.commit name)).1.trail.sink = (EventSink.emit w.trail.sink (w.buffer name)).1 ∧
      (w.step (.commit name)).2 =
        (EventSink.emit w.trail.sink (w.buffer name)).2.map fun _ => (w.buffer name).length := by
  cases entry : w.transactions.get? name with
  | none => exact absurd (buffer_of_closed entry) h
  | some x =>
    rw [buffer_of_open entry] at h ⊢
    rw [step_commit_of_open entry, Transaction.commit, Trail.deliver_of_ne_nil _ h]
    cases (EventSink.emit w.trail.sink x.pending).2 <;> exact ⟨rfl, rfl⟩

/-- A commit of an empty transaction does not call the sink. -/
theorem commit_nothing {name : String} (h : w.buffer name = []) :
    (w.step (.commit name)).1.trail = w.trail ∧ (w.step (.commit name)).2 = .ok 0 := by
  cases entry : w.transactions.get? name with
  | none =>
    rw [(step_of_closed entry).2.1]
    exact ⟨rfl, rfl⟩
  | some x =>
    rw [buffer_of_open entry] at h
    rw [step_commit_of_open entry, Transaction.commit, h]
    exact ⟨rfl, rfl⟩

/-- A rollback delivers nothing, empties the transaction and returns how much waited. -/
theorem rollback_step (name : String) :
    (w.step (.rollback name)).1.trail = w.trail ∧
      (w.step (.rollback name)).1.buffer name = [] ∧
      (w.step (.rollback name)).2 = .ok (w.buffer name).length := by
  cases entry : w.transactions.get? name with
  | none =>
    have closed := buffer_of_closed entry
    rw [(step_of_closed entry).2.2, closed]
    exact ⟨rfl, rfl, rfl⟩
  | some x =>
    rw [step_rollback_of_open entry, buffer_of_open entry]
    exact ⟨rfl, buffer_close, rfl⟩

/-- Under a transactional policy a recorded transition waits: its call returns by how much the
transaction grew. -/
theorem record_waits (h : w.trail.store.live.policy.transactional = true) (name : String)
    (now : Instant) (record : Record) (transition : Transition) :
    (w.step (.record (some name) now record transition)).1.trail.sink = w.trail.sink ∧
      (w.step (.record (some name) now record transition)).1.buffer name =
        w.buffer name ++ w.passed (.record (some name) now record transition) ∧
      (w.step (.record (some name) now record transition)).2 =
        .ok (w.passed (.record (some name) now record transition)).length := by
  cases entry : w.transactions.get? name with
  | none =>
    rw [(step_of_closed entry).1, passed_of_closed entry, List.append_nil]
    exact ⟨rfl, rfl, rfl⟩
  | some x =>
    rw [step_record_of_open entry, passed_of_open entry, buffer_of_open entry,
      Transaction.record_held x h]
    exact ⟨Trail.observe_sink .., buffer_update _, rfl⟩

/-- A transition recorded directly, or under a policy that is not transactional, is sent in its call
or not at all, and no transaction changes. -/
theorem record_offered (target : Option String)
    (h : target = none ∨ w.trail.store.live.policy.transactional = false) (now : Instant)
    (record : Record) (transition : Transition) :
    (w.step (.record target now record transition)).1.transactions = w.transactions ∧
      ((w.step (.record target now record transition)).2 =
            .ok (w.passed (.record target now record transition)).length ∧
          Offered w.trail.sink (w.step (.record target now record transition)).1.trail.sink
            (w.passed (.record target now record transition)) ∨
        ∃ e, (w.step (.record target now record transition)).2 = .error e ∧
          Offered w.trail.sink (w.step (.record target now record transition)).1.trail.sink []) := by
  have recorded := Trail.record_offered w.trail now record transition
  cases target with
  | none => exact ⟨rfl, recorded⟩
  | some name =>
    have mode : w.trail.store.live.policy.transactional = false := h.resolve_left nofun
    cases entry : w.transactions.get? name with
    | none =>
      rw [(step_of_closed entry).1, passed_of_closed entry]
      exact ⟨rfl, .inl ⟨rfl, .idle rfl rfl⟩⟩
    | some x =>
      rw [step_record_of_open entry, passed_of_open entry, Transaction.record_immediate x mode]
      exact ⟨OrderedMap.insert_of_get? entry, recorded⟩

include law in
/-- A transition recorded directly, or under a policy that is not transactional, is delivered in its
call or not at all, and no transaction changes. -/
theorem record_delivers (target : Option String)
    (h : target = none ∨ w.trail.store.live.policy.transactional = false) (now : Instant)
    (record : Record) (transition : Transition) :
    (w.step (.record target now record transition)).1.transactions = w.transactions ∧
      ((w.step (.record target now record transition)).2 =
            .ok (w.passed (.record target now record transition)).length ∧
          accepted (w.step (.record target now record transition)).1.trail.sink =
            accepted w.trail.sink ++ w.passed (.record target now record transition) ∨
        ∃ e, (w.step (.record target now record transition)).2 = .error e ∧
          accepted (w.step (.record target now record transition)).1.trail.sink =
            accepted w.trail.sink) := by
  obtain ⟨kept, ⟨answer, taken⟩ | ⟨e, answer, left⟩⟩ :=
    record_offered w target h now record transition
  · exact ⟨kept, .inl ⟨answer, law.offered taken⟩⟩
  · exact ⟨kept, .inr ⟨e, answer, (law.offered left).trans (List.append_nil _)⟩⟩

omit [EventSink σ] in
/-- Only events of types that are registered as audited pass. -/
theorem audited_of_mem_passed {call : Call} {e : Event} (member : e ∈ w.passed call) :
    ∃ plan, w.trail.options? e.entityType = some ⟨plan, true⟩ := by
  unfold passed at member
  split at member
  · exact Trail.audited_of_mem_passed _ _ _ _ member
  · split at member
    · exact Trail.audited_of_mem_passed _ _ _ _ member
    · cases member
  · cases member

omit [EventSink σ] in
theorem passes_recorded {target : Option String} {now : Instant} {record : Record}
    {transition : Transition}
    (opened : ∀ name ∈ target, ∃ x, w.transactions.get? name = some x) :
    w.Passes (.record target now record transition) (w.trail.passed now record transition) := by
  by_cases audited : ∃ plan, w.trail.options? record.entityType = some ⟨plan, true⟩
  · obtain ⟨plan, registered⟩ := audited
    rw [Trail.passed_of_audited _ now record transition registered]
    have same (e : Event) : (!w.trail.gate.suppresses e) =
        decide (¬ Gate.Stops w.trail.gate.handlers e) := by
      simp only [decide_not, ← Gate.suppresses_iff_stops, Bool.decide_eq_true]
    simp only [same]
    exact .recorded opened registered
  · rw [Trail.passed_of_not_audited _ now record transition audited]
    exact .unaudited audited

omit [EventSink σ] in
theorem passes_passed (call : Call) : w.Passes call (w.passed call) := by
  cases call with
  | record target now record transition =>
    cases target with
    | none => exact passes_recorded w nofun
    | some name =>
      cases entry : w.transactions.get? name with
      | none =>
        rw [passed_of_closed entry]
        exact .closed entry
      | some x =>
        rw [passed_of_open entry]
        refine passes_recorded w ?_
        rintro _ ⟨⟩
        exact ⟨x, entry⟩
  | _ => exact .unrecorded (by rintro _ _ _ _ ⟨⟩)

/-! ## One step -/

include law in
/-- What waits in a transaction changes with the calls that name it, and in no other way. -/
theorem buffer_step (name : String) (call : Call) :
    (w.step call).1.buffer name =
      if (w.report call).empties name then [] else w.buffer name ++ (w.report call).held name := by
  by_cases own : call.target? = some name
  case neg => simp [Report.empties, Report.held, report, own, buffer_step_of_ne own]
  case pos =>
    cases call with
    | register entityType options => nomatch own
    | configure files operation => nomatch own
    | begin owner =>
      obtain rfl := Option.some.inj own
      have begun : (w.step (.begin owner)).1 = w.update owner .empty w.trail := rfl
      simp [report, Report.empties, own, begun, buffer_update, Transaction.empty]
    | record target now record transition =>
      have named : target = some name := own
      subst named
      cases mode : w.trail.store.live.policy.transactional with
      | true =>
        obtain ⟨-, grown, -⟩ := record_waits w mode name now record transition
        simp [report, Report.empties, Report.held, own, mode, grown]
      | false =>
        obtain ⟨kept, -⟩ := record_delivers law w (some name) (.inr mode) now record transition
        simp [report, Report.empties, Report.held, mode, buffer_congr kept]
    | commit owner =>
      obtain rfl := Option.some.inj own
      cases answer : (w.step (.commit owner)).2 with
      | ok n =>
        obtain ⟨-, emptied, -⟩ := commit_succeeded law w answer
        simp [report, Report.empties, own, answer, emptied, Except.isOk, Except.toBool]
      | error e =>
        obtain ⟨kept, -⟩ := commit_failed law w answer
        simp [report, Report.empties, Report.held, passed, answer, buffer_congr kept, Except.isOk,
          Except.toBool]
    | rollback owner =>
      obtain rfl := Option.some.inj own
      obtain ⟨-, emptied, -⟩ := rollback_step w owner
      simp [report, Report.empties, own, emptied]
    | drop owner =>
      obtain rfl := Option.some.inj own
      simp [report, Report.empties, own, step, buffer_close]

include law in
/-- A call moves events between sink, buffers and discard, and adds those that pass the gate. -/
theorem count_step (call : Call) (e : Event) :
    (accepted (w.step call).1.trail.sink).count e + (w.step call).1.buffered.count e +
        (w.discarded call).count e =
      (accepted w.trail.sink).count e + w.buffered.count e + (w.passed call).count e := by
  cases call with
  | register entityType options => rfl
  | configure files operation => rfl
  | begin name =>
    have frame := count_buffered_step w (.begin name) rfl e
    have emptied : (w.step (.begin name)).1.buffer name = [] := buffer_update w.trail
    have kept : (w.step (.begin name)).1.trail = w.trail := rfl
    rw [emptied, List.count_nil] at frame
    simp only [discarded, passed, kept, List.count_nil]
    omega
  | record target now record transition =>
    by_cases immediate : target = none ∨ w.trail.store.live.policy.transactional = false
    case pos =>
      obtain ⟨kept, delivered⟩ := record_delivers law w target immediate now record transition
      rw [buffered, kept, ← buffered]
      rcases delivered with ⟨answer, taken⟩ | ⟨refusal, answer, left⟩
      · rw [discarded_of_ok answer, taken, List.count_append, List.count_nil]
        omega
      · rw [discarded_of_error answer, left]
    case neg =>
      cases target with
      | none => exact absurd (.inl rfl) immediate
      | some name =>
        have mode : w.trail.store.live.policy.transactional = true := by simpa using immediate
        obtain ⟨kept, grown, answer⟩ := record_waits w mode name now record transition
        have frame := count_buffered_step w (.record (some name) now record transition) rfl e
        rw [grown, List.count_append] at frame
        rw [discarded_of_ok answer, kept, List.count_nil]
        omega
  | commit name =>
    have frame := count_buffered_step w (.commit name) rfl e
    cases answer : (w.step (.commit name)).2 with
    | ok n =>
      obtain ⟨-, emptied, taken⟩ := commit_succeeded law w answer
      rw [emptied, List.count_nil] at frame
      simp only [discarded, passed, taken, List.count_append, List.count_nil]
      omega
    | error refusal =>
      obtain ⟨kept, left⟩ := commit_failed law w answer
      rw [buffer_congr kept] at frame
      simp only [discarded, passed, left, List.count_nil]
      omega
  | rollback name =>
    have frame := count_buffered_step w (.rollback name) rfl e
    obtain ⟨kept, emptied, -⟩ := rollback_step w name
    rw [emptied, List.count_nil] at frame
    simp only [discarded, passed, kept, List.count_nil]
    omega
  | drop name =>
    have frame := count_buffered_step w (.drop name) rfl e
    have emptied : (w.step (.drop name)).1.buffer name = [] := buffer_close
    have kept : (w.step (.drop name)).1.trail = w.trail := rfl
    rw [emptied, List.count_nil] at frame
    simp only [discarded, passed, kept, List.count_nil]
    omega

/-! ## A run -/

theorem told_reports (calls : List Call) : Told w calls (w.reports calls) := by
  induction calls generalizing w with
  | nil => exact .nil w
  | cons call calls ih =>
    exact .cons (r := w.report call) (passes_passed w call) rfl rfl rfl (ih _)

include law in
theorem buffer_run {w : Workspace σ} {name : String} (earlier : List Report)
    (h : w.buffer name = Report.waiting name earlier) (calls : List Call) :
    (w.run calls).buffer name = Report.waiting name (earlier ++ w.reports calls) := by
  -- the reports so far are carried along, since a transaction may be emptied at any later call
  induction calls generalizing w earlier with
  | nil => simpa [run, reports] using h
  | cons call calls ih =>
    have grown : (w.step call).1.buffer name = Report.waiting name (earlier ++ [w.report call]) := by
      rw [buffer_step law, Report.waiting_snoc, h]
    have rest := ih _ grown
    rw [List.append_assoc] at rest
    exact rest

include law in
theorem count_run (calls : List Call) (e : Event) :
    (accepted (w.run calls).trail.sink).count e + (w.run calls).buffered.count e +
        ((w.reports calls).flatMap Report.discarded).count e =
      (accepted w.trail.sink).count e + w.buffered.count e +
        ((w.reports calls).flatMap Report.passed).count e := by
  induction calls generalizing w with
  | nil => rfl
  | cons call calls ih =>
    have moved := count_step law w call e
    have rest := ih (w.step call).1
    simp only [reports, List.flatMap_cons, List.count_append]
    change (accepted ((w.step call).1.run calls).trail.sink).count e +
      ((w.step call).1.run calls).buffered.count e +
        ((w.discarded call).count e + _) = _ + _ + ((w.passed call).count e + _)
    omega

/-- Where the events of a run are. -/
structure Accounted (accepted : σ → List Event) (start : Workspace σ) (calls : List Call) :
    Prop where
  /-- The reports tell of the run, and of what passed in it. -/
  told : Told start calls (start.reports calls)
  /-- Every event that passed was accepted, waits or was discarded, as often as it passed. -/
  conserved :
    (accepted (start.run calls).trail.sink ++ (start.run calls).buffered ++
        (start.reports calls).flatMap Report.discarded).Perm
      (accepted start.trail.sink ++ (start.reports calls).flatMap Report.passed)
  /-- What waits in a transaction is what its calls put there, in the order of the calls. -/
  waiting : ∀ name,
    (start.run calls).buffer name = Report.waiting name (start.reports calls)

/-- How the next call treats the events. -/
structure Careful (accepted : σ → List Event) (w : Workspace σ) : Prop where
  commit_failed : ∀ name e, (w.step (.commit name)).2 = .error e →
    (w.step (.commit name)).1.transactions = w.transactions ∧
      accepted (w.step (.commit name)).1.trail.sink = accepted w.trail.sink
  commit_succeeded : ∀ name n, (w.step (.commit name)).2 = .ok n →
    n = (w.buffer name).length ∧ (w.step (.commit name)).1.buffer name = [] ∧
      accepted (w.step (.commit name)).1.trail.sink = accepted w.trail.sink ++ w.buffer name
  commit_offers : ∀ name, w.buffer name ≠ [] →
    (w.step (.commit name)).1.trail.sink = (EventSink.emit w.trail.sink (w.buffer name)).1 ∧
      (w.step (.commit name)).2 =
        (EventSink.emit w.trail.sink (w.buffer name)).2.map fun _ => (w.buffer name).length
  commit_nothing : ∀ name, w.buffer name = [] →
    (w.step (.commit name)).1.trail = w.trail ∧ (w.step (.commit name)).2 = .ok 0
  rollback : ∀ name, (w.step (.rollback name)).1.trail = w.trail ∧
    (w.step (.rollback name)).1.buffer name = [] ∧
    (w.step (.rollback name)).2 = .ok (w.buffer name).length
  record_waits : w.trail.store.live.policy.transactional = true →
    ∀ name now record transition,
      (w.step (.record (some name) now record transition)).1.trail.sink = w.trail.sink ∧
        (w.step (.record (some name) now record transition)).1.buffer name =
          w.buffer name ++ w.passed (.record (some name) now record transition) ∧
        (w.step (.record (some name) now record transition)).2 =
          .ok (w.passed (.record (some name) now record transition)).length
  record_delivers : ∀ target, target = none ∨ w.trail.store.live.policy.transactional = false →
    ∀ now record transition,
      (w.step (.record target now record transition)).1.transactions = w.transactions ∧
        ((w.step (.record target now record transition)).2 =
              .ok (w.passed (.record target now record transition)).length ∧
            accepted (w.step (.record target now record transition)).1.trail.sink =
              accepted w.trail.sink ++ w.passed (.record target now record transition) ∨
          ∃ e, (w.step (.record target now record transition)).2 = .error e ∧
            accepted (w.step (.record target now record transition)).1.trail.sink =
              accepted w.trail.sink)
  passes : ∀ call, w.Passes call (w.passed call)
  audited : ∀ call, ∀ e ∈ w.passed call,
    ∃ plan, w.trail.options? e.entityType = some ⟨plan, true⟩

/-- **No event is lost or doubled.** After any run of a trail, over a sink that takes batches whole
or not at all, every event is accounted for, and so will it be after the next call. -/
theorem run_accounts {accepted : σ → List Event} (law : AllOrNothing accepted) (trail : Trail σ)
    (calls : List Call) :
    Accounted accepted (new trail) calls ∧ Careful accepted ((new trail).run calls) := by
  constructor
  · constructor
    case told => exact told_reports (new trail) calls
    case conserved =>
      rw [List.perm_iff_count]
      intro e
      have moved := count_run law (new trail) calls e
      have closed : (new trail).buffered = [] := rfl
      rw [closed, List.count_nil] at moved
      simp only [List.count_append]
      exact moved
    case waiting =>
      intro name
      exact buffer_run law [] rfl calls
  · exact {
      commit_failed := fun name e h => commit_failed law _ h
      commit_succeeded := fun name n h => commit_succeeded law _ h
      commit_offers := fun name h => commit_offers _ h
      commit_nothing := fun name h => commit_nothing _ h
      rollback := rollback_step _
      record_waits := record_waits _
      record_delivers := record_delivers law _
      passes := passes_passed _
      audited := fun call e member => audited_of_mem_passed _ member }

/-- A transaction whose first commit is refused, beside one that is rolled back and direct calls. -/
theorem run_accounts_after_refusal : ∃ (trail : Trail ScriptedSink) (calls : List Call),
    AllOrNothing ScriptedSink.accepted ∧
      (Accounted ScriptedSink.accepted (new trail) calls ∧
        Careful ScriptedSink.accepted ((new trail).run calls)) ∧
      ((new trail).reports calls).map (fun r => r.answer.toOption) =
        [some 0, some 0, some 0, some 0, some 1, some 1, none, some 1, some 2, some 1, some 1,
          some 0] ∧
      ((new trail).run calls).trail.sink.accepted.map Event.entityId = ["1", "3", "4"] :=
  ⟨Trail.new ⟨[true], []⟩ .standard,
    [.register "Order" ⟨none, true⟩,
      .configure .empty (.reload (.document (.object [("transactional", .bool true)]))),
      .begin "left", .begin "right",
      .record (some "left") .epoch (.new "Order" "1") .insert,
      .record (some "right") .epoch (.new "Order" "2") .insert,
      .commit "left",
      .record (some "left") .epoch (.new "Order" "3") .insert,
      .commit "left",
      .rollback "right",
      .record none .epoch (.new "Order" "4") .delete,
      .record none .epoch (.new "Draft" "5") .insert],
    ScriptedSink.allOrNothing, run_accounts ScriptedSink.allOrNothing _ _, rfl, rfl⟩

end Workspace

end ChangeAudit
