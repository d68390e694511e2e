import ChangeAudit.Keyring
import ChangeAudit.Proofs.Workspace

/-!
# Transactions do not interfere

What a host sees of a transaction is a list of sights, one for each of its calls: the answer, the
events that wait afterwards and the events that were delivered. Over a sink that takes every batch,
the events that wait, those that pass and the mode of the policy determine a sight (`sight_eq`), and
no call of another transaction changes what waits. `run_isolated` compares a run of many
transactions with the run in which the calls of one are alone.
-/

namespace ChangeAudit

/-! ## Events that pass over one setup -/

namespace Trail

variable {σ : Type}

/-- The trail, drawing ids and nonces from another supply. -/
def redraw (t : Trail σ) (supply : Supply) : Trail σ := { t with supply := supply }

/-- Events that this trail could have recorded of one transition at two times. -/
def Alike (t : Trail σ) : Event → Event → Prop := Event.Alike t.store.live.policy t.sealer

/-- No handler looks at what is drawn afresh: the outcome is the same for events that are alike. (One
that reads an id tells two runs apart, whatever the transactions do.) -/
def Blind (t : Trail σ) : Prop :=
  ∀ h ∈ t.gate.handlers, ∀ a b, t.Alike a b → h.handle a = h.handle b

/-- What passes depends on the setup and on what is drawn. -/
theorem SameSetup.passed {base t : Trail σ} (same : SameSetup t base) (now : Instant)
    (record : Record) (transition : Transition) :
    t.passed now record transition = (base.redraw t.supply).passed now record transition := by
  have registered : t.options? record.entityType = base.options? record.entityType := by
    rw [options?, same.registry, options?]
  by_cases audited : ∃ plan, base.options? record.entityType = some ⟨plan, true⟩
  · obtain ⟨plan, found⟩ := audited
    rw [passed_of_audited t now record transition (registered.trans found),
      passed_of_audited (base.redraw t.supply) now record transition found]
    simp only [redraw, Gate.suppresses, same.store, same.sealer, same.handlers]
  · have other : ¬ ∃ plan, t.options? record.entityType = some ⟨plan, true⟩ := by rwa [registered]
    rw [passed_of_not_audited t now record transition other,
      passed_of_not_audited (base.redraw t.supply) now record transition audited]

/-- Blind handlers let alike events pass, whenever they are recorded and whatever is drawn. -/
theorem passed_alike {base : Trail σ} (blind : base.Blind) (s t : Supply) (now later : Instant)
    (record : Record) (transition : Transition) :
    List.Forall₂ base.Alike ((base.redraw s).passed now record transition)
      ((base.redraw t).passed later record transition) := by
  by_cases audited : ∃ plan, base.options? record.entityType = some ⟨plan, true⟩
  · obtain ⟨plan, found⟩ := audited
    rw [passed_of_audited (base.redraw s) now record transition found,
      passed_of_audited (base.redraw t) later record transition found]
    refine List.rel_filter ?_ (Transition.events_alike ..)
    intro a b alike
    have same : base.gate.suppresses a = base.gate.suppresses b :=
      Gate.suppresses_eq fun h member => blind h member a b alike
    simp only [redraw, same]
  · rw [passed_of_not_audited (base.redraw s) now record transition audited,
      passed_of_not_audited (base.redraw t) later record transition audited]
    exact .nil

/-- Trails that go on as a trail was: of its setup, over a sink that takes all. -/
structure Steady [EventSink σ] (accepted : σ → List Event) (base t : Trail σ) : Prop where
  setup : SameSetup t base
  ready : TakesAll accepted t.sink

end Trail

/-! ## Sights -/

/-- What a host sees of a transaction when a call of it ends. -/
structure Sight where
  answer : Except Fault Nat
  /-- The events that wait, if the transaction is open. -/
  waiting : Option (List Event)
  /-- The events that were delivered in the call. -/
  delivered : List Event

/-- Sights that are the same up to a relation of their events. -/
structure Sight.Related (R : Event → Event → Prop) (a b : Sight) : Prop where
  answer : a.answer = b.answer
  waiting : Option.Rel (List.Forall₂ R) a.waiting b.waiting
  delivered : List.Forall₂ R a.delivered b.delivered

theorem Sight.eq_of_related {a b : Sight} (related : Related Eq a b) : a = b := by
  obtain ⟨answer, waits, delivered⟩ := a
  obtain ⟨answer', waits', delivered'⟩ := b
  obtain ⟨sameAnswer, sameWaits, sameDelivered⟩ := related
  rw [List.forall₂_eq_eq_eq] at sameWaits sameDelivered
  obtain rfl : answer = answer' := sameAnswer
  obtain rfl : delivered = delivered' := sameDelivered
  cases sameWaits with
  | none => rfl
  | some same => rw [same]

/-- The sight of a call of a transaction, given whether events are held, those that pass and those
that waited before. -/
def Call.sight (call : Call) (transactional : Bool) (passed : List Event) :
    Option (List Event) → Sight
  | none =>
    match call with
    | .begin _ => ⟨.ok 0, some [], []⟩
    | _ => ⟨.ok 0, none, []⟩
  | some waiting =>
    match call with
    | .begin _ => ⟨.ok 0, some [], []⟩
    | .record _ _ _ _ =>
      if transactional then ⟨.ok passed.length, some (waiting ++ passed), []⟩
      else ⟨.ok passed.length, some waiting, passed⟩
    | .commit _ => ⟨.ok waiting.length, some [], waiting⟩
    | .rollback _ => ⟨.ok waiting.length, none, []⟩
    | _ => ⟨.ok 0, none, []⟩

theorem Call.sight_related {R : Event → Event → Prop} (call : Call) (transactional : Bool)
    {p q : List Event} (passed : List.Forall₂ R p q) {v u : Option (List Event)}
    (waiting : Option.Rel (List.Forall₂ R) v u) :
    Sight.Related R (call.sight transactional p v) (call.sight transactional q u) := by
  cases waiting with
  | none =>
    cases call with
    | begin name => exact ⟨rfl, .some .nil, .nil⟩
    | _ => exact ⟨rfl, .none, .nil⟩
  -- related lists have one length, so the answers are equal
  | some same =>
    cases call with
    | begin name => exact ⟨rfl, .some .nil, .nil⟩
    | record name now record transition =>
      have length : (Except.ok p.length : Except Fault Nat) = .ok q.length :=
        congrArg Except.ok passed.length_eq
      cases transactional with
      | true => exact ⟨length, .some (List.rel_append same passed), .nil⟩
      | false => exact ⟨length, .some same, passed⟩
    | commit name => exact ⟨congrArg Except.ok same.length_eq, .some .nil, same⟩
    | rollback name => exact ⟨congrArg Except.ok same.length_eq, .none, .nil⟩
    | _ => exact ⟨rfl, .none, .nil⟩

/-- The call made at another time. -/
def Call.at (now : Instant) : Call → Call
  | .record target _ entity transition => .record target now entity transition
  | call => call

/-- The time of a call, if it tells one. -/
def Call.time : Call → Instant
  | .record _ now _ _ => now
  | _ => .epoch

theorem Call.at_time (call : Call) : call.at call.time = call := by
  cases call <;> rfl

theorem Call.target?_at (call : Call) (now : Instant) : (call.at now).target? = call.target? := by
  cases call <;> rfl

theorem Call.sight_at (call : Call) (now : Instant) : (call.at now).sight = call.sight := by
  funext transactional passed waiting
  cases call <;> cases waiting <;> rfl

theorem Call.isSetup_of_target? {call : Call} {name : String} (own : call.target? = some name) :
    call.isSetup = false := by
  cases call with
  | register entityType options => nomatch own
  | configure files operation => nomatch own
  | _ => rfl

namespace Workspace

variable {σ : Type}

/-- The workspace, drawing ids and nonces from another supply. -/
def redraw (w : Workspace σ) (supply : Supply) : Workspace σ :=
  { w with trail := w.trail.redraw supply }

variable [EventSink σ] (accepted : σ → List Event) (name : String)

/-- What a host sees of a transaction when a call ends. -/
def sight (w : Workspace σ) (call : Call) : Sight where
  answer := (w.step call).2
  waiting := (w.step call).1.waiting? name
  delivered := (accepted (w.step call).1.trail.sink).drop (accepted w.trail.sink).length

/-- The sights of the calls of a transaction in a run. -/
def sights (w : Workspace σ) : List Call → List Sight
  | [] => []
  | call :: calls =>
    if call.target? = some name then
      w.sight accepted name call :: (w.step call).1.sights calls
    else (w.step call).1.sights calls

/-- The sights of the calls of a transaction when they run alone, each drawing the ids and nonces
that it draws in the run of all calls from `w`. -/
def sightsAlone (alone w : Workspace σ) : List Call → List Sight
  | [] => []
  | call :: calls =>
    if call.target? = some name then
      (alone.redraw w.trail.supply).sight accepted name call ::
        sightsAlone ((alone.redraw w.trail.supply).step call).1 (w.step call).1 calls
    else sightsAlone alone (w.step call).1 calls

/-! ## One call -/

variable {accepted name} {w : Workspace σ} {call : Call}

theorem steady_step {base : Trail σ} (steady : base.Steady accepted w.trail)
    (fixed : call.isSetup = false) : base.Steady accepted (w.step call).1.trail := by
  refine step_trail_of_not_setup ?_ ?_ fixed steady
  · intro t now record transition h
    refine ⟨(t.observe_sameSetup now record transition).trans h.setup, ?_⟩
    rw [Trail.observe_sink]
    exact h.ready
  · intro t batch h
    exact ⟨(t.deliver_sameSetup batch).trans h.setup, (Trail.deliver_takes h.ready batch).2.2⟩

theorem sight_of_step {after : Workspace σ} {answer : Except Fault Nat}
    (stepped : w.step call = (after, answer)) :
    w.sight accepted name call =
      ⟨answer, after.waiting? name,
        (accepted after.trail.sink).drop (accepted w.trail.sink).length⟩ := by
  rw [sight, stepped]

/-- A call that does nothing shows nothing. -/
theorem sight_of_skipped (entry : w.transactions.get? name = none)
    (skipped : w.step call = (w, .ok 0)) :
    w.sight accepted name call = ⟨.ok 0, none, []⟩ := by
  rw [sight_of_step skipped, waiting?_of_closed entry, List.drop_length]

/-- Over a sink that takes all, the sight of a call of a transaction depends on the mode of the
policy, the events that pass and those that waited, and on nothing else. -/
theorem sight_eq (ready : TakesAll accepted w.trail.sink) (own : call.target? = some name) :
    w.sight accepted name call =
      call.sight w.trail.store.live.policy.transactional (w.passed call) (w.waiting? name) := by
  cases call with
  | register entityType options => nomatch own
  | configure files operation => nomatch own
  | begin owner =>
    obtain rfl := Option.some.inj own
    have begun : w.step (.begin owner) = (w.update owner .empty w.trail, .ok 0) := rfl
    rw [sight_of_step begun, waiting?_update, trail_update, List.drop_length]
    cases w.waiting? owner <;> rfl
  | record target now record transition =>
    have named : target = some name := own
    subst named
    cases entry : w.transactions.get? name with
    | none =>
      rw [sight_of_skipped entry ((step_of_closed entry).1 ..), waiting?_of_closed entry]
      rfl
    | some x =>
      have stepped := step_record_of_open entry now record transition
      rw [waiting?_of_open entry, passed_of_open entry]
      cases mode : w.trail.store.live.policy.transactional with
      | true =>
        rw [Transaction.record_held x mode] at stepped
        rw [sight_of_step stepped, waiting?_update, trail_update, Trail.observe_sink,
          List.drop_length]
        rfl
      | false =>
        rw [Transaction.record_immediate x mode] at stepped
        obtain ⟨answer, taken⟩ := Trail.record_takes ready now record transition
        rw [sight_of_step stepped, waiting?_update, trail_update, answer, taken,
          List.drop_left]
        rfl
  | commit owner =>
    obtain rfl := Option.some.inj own
    cases entry : w.transactions.get? owner with
    | none =>
      rw [sight_of_skipped entry (step_of_closed entry).2.1, waiting?_of_closed entry]
      rfl
    | some x =>
      obtain ⟨committed, taken⟩ := Transaction.commit_takes ready x
      have stepped := step_commit_of_open entry
      rw [committed] at stepped
      rw [sight_of_step stepped, waiting?_update, trail_update, waiting?_of_open entry, taken,
        List.drop_left]
      rfl
  | rollback owner =>
    obtain rfl := Option.some.inj own
    cases entry : w.transactions.get? owner with
    | none =>
      rw [sight_of_skipped entry (step_of_closed entry).2.2, waiting?_of_closed entry]
      rfl
    | some x =>
      rw [sight_of_step (step_rollback_of_open entry), waiting?_close, trail_close,
        waiting?_of_open entry, List.drop_length]
      rfl
  | drop owner =>
    obtain rfl := Option.some.inj own
    have dropped : w.step (.drop owner) = (w.close owner, .ok 0) := rfl
    rw [sight_of_step dropped, waiting?_close, trail_close, List.drop_length]
    cases w.waiting? owner <;> rfl

/-! ## Two runs -/

/-- Workspaces in which a transaction is the same up to a relation of its events: both go on as one
trail was. -/
structure Matched (R : Event → Event → Prop) (accepted : σ → List Event) (base : Trail σ)
    (name : String) (v w : Workspace σ) : Prop where
  left : base.Steady accepted v.trail
  right : base.Steady accepted w.trail
  waiting : Option.Rel (List.Forall₂ R) (v.waiting? name) (w.waiting? name)

variable {R : Event → Event → Prop} {base : Trail σ} {v : Workspace σ}

theorem Matched.redraw (same : Matched R accepted base name v w) (supply : Supply) :
    Matched R accepted base name v (w.redraw supply) where
  left := same.left
  right := ⟨⟨same.right.setup.store, same.right.setup.registry, same.right.setup.sealer,
    same.right.setup.handlers⟩, same.right.ready⟩
  waiting := same.waiting

/-- A call of another transaction changes nothing of the match. -/
theorem Matched.other (same : Matched R accepted base name v w) (fixed : call.isSetup = false)
    (other : call.target? ≠ some name) : Matched R accepted base name (v.step call).1 w where
  left := steady_step same.left fixed
  right := same.right
  waiting := by
    rw [waiting?_step_of_ne other]
    exact same.waiting

/-- If the same or related events pass the gates of two trails, they pass in a call of the matched
transaction. -/
theorem Matched.passed (same : Matched R accepted base name v w) (own : call.target? = some name)
    (now : Instant)
    (trails : ∀ record transition, List.Forall₂ R (v.trail.passed call.time record transition)
      (w.trail.passed now record transition)) :
    List.Forall₂ R (v.passed call) (w.passed (call.at now)) := by
  cases call with
  | record target time record transition =>
    have named : target = some name := own
    subst named
    have waits := same.waiting
    rw [Call.at]
    cases left : v.transactions.get? name with
    | none =>
      cases right : w.transactions.get? name with
      | none =>
        rw [passed_of_closed left, passed_of_closed right]
        exact .nil
      | some y =>
        rw [waiting?_of_closed left, waiting?_of_open right] at waits
        nomatch waits
    | some x =>
      cases right : w.transactions.get? name with
      | none =>
        rw [waiting?_of_open left, waiting?_of_closed right] at waits
        nomatch waits
      | some y =>
        rw [passed_of_open left, passed_of_open right]
        exact trails record transition
  | _ => exact .nil

/-- A call of the matched transaction shows related sights and keeps the match. -/
theorem Matched.own (same : Matched R accepted base name v w) (own : call.target? = some name)
    (now : Instant)
    (trails : ∀ record transition, List.Forall₂ R (v.trail.passed call.time record transition)
      (w.trail.passed now record transition)) :
    Sight.Related R (v.sight accepted name call) (w.sight accepted name (call.at now)) ∧
      Matched R accepted base name (v.step call).1 (w.step (call.at now)).1 := by
  have later : (call.at now).target? = some name := (call.target?_at now).trans own
  have store : w.trail.store = v.trail.store :=
    same.right.setup.store.trans same.left.setup.store.symm
  have related : Sight.Related R (v.sight accepted name call)
      (w.sight accepted name (call.at now)) := by
    rw [sight_eq same.left.ready own, sight_eq same.right.ready later, call.sight_at, store]
    exact call.sight_related _ (same.passed own now trails) same.waiting
  exact ⟨related, steady_step same.left (Call.isSetup_of_target? own),
    steady_step same.right (Call.isSetup_of_target? later), related.waiting⟩

/-- Whatever the handlers look at, nothing differs if the same is drawn. -/
theorem Matched.sights_eq (same : Matched Eq accepted base name v w) {calls : List Call}
    (fixed : ∀ call ∈ calls, call.isSetup = false) :
    List.Forall₂ (Sight.Related Eq) (v.sights accepted name calls)
      (w.sightsAlone accepted name v calls) := by
  induction calls generalizing v w with
  | nil => exact .nil
  | cons call calls ih =>
    obtain ⟨kept, rest⟩ := List.forall_mem_cons.1 fixed
    rw [sights, sightsAlone]
    by_cases own : call.target? = some name
    · have redrawn := same.redraw v.trail.supply
      -- both sides draw from one supply now, so the same events pass
      have step := redrawn.own own call.time fun record transition => by
        rw [redrawn.left.setup.passed, redrawn.right.setup.passed, List.forall₂_eq_eq_eq]
        rfl
      rw [call.at_time] at step
      rw [if_pos own, if_pos own]
      exact .cons step.1 (ih step.2 rest)
    · rw [if_neg own, if_neg own]
      exact ih (same.other kept own) rest

/-- If no handler looks at what is drawn, nothing differs but what is drawn. -/
theorem Matched.sights_alike (blind : base.Blind)
    (same : Matched base.Alike accepted base name v w) {calls alone : List Call}
    (fixed : ∀ call ∈ calls, call.isSetup = false)
    (own_calls : List.Forall₂ (fun call other => ∃ now, other = call.at now)
      (calls.filter fun call => call.target? = some name) alone) :
    List.Forall₂ (Sight.Related base.Alike) (v.sights accepted name calls)
      (w.sights accepted name alone) := by
  induction calls generalizing v w alone with
  | nil =>
    cases own_calls
    exact .nil
  | cons call calls ih =>
    obtain ⟨kept, rest⟩ := List.forall_mem_cons.1 fixed
    rw [sights]
    by_cases own : call.target? = some name
    · rw [List.filter_cons_of_pos (by simpa using own)] at own_calls
      cases own_calls with
      | cons first others =>
        obtain ⟨now, rfl⟩ := first
        obtain ⟨related, next⟩ := same.own own now fun record transition => by
          rw [same.left.setup.passed, same.right.setup.passed]
          exact Trail.passed_alike blind ..
        rw [if_pos own, sights, if_pos ((call.target?_at now).trans own)]
        exact .cons related (ih next rest others)
    · rw [List.filter_cons_of_neg (by simpa using own)] at own_calls
      rw [if_neg own]
      exact ih (same.other kept own) rest own_calls

theorem Matched.refl (reflexive : ∀ e, R e e) (ready : TakesAll accepted w.trail.sink) :
    Matched R accepted w.trail name w w where
  left := ⟨.refl w.trail, ready⟩
  right := ⟨.refl w.trail, ready⟩
  waiting := by
    cases w.waiting? name with
    | none => exact .none
    | some events => exact .some (List.forall₂_same.2 fun e _ => reflexive e)

/-- **Transactions do not interfere.** Over a sink that takes every batch and with one setup, take
any run of calls and the run of the calls of one transaction alone. If its calls draw the same ids
and nonces, its sights are the same. If they draw others, at other times, then its sights are the
same apart from ids, times and nonces, unless a handler looks at those. -/
theorem run_isolated {accepted : σ → List Event} (w : Workspace σ)
    (ready : TakesAll accepted w.trail.sink) (name : String) (calls : List Call)
    (fixed : ∀ call ∈ calls, call.isSetup = false) :
    w.sights accepted name calls = w.sightsAlone accepted name w calls ∧
      (w.trail.Blind → ∀ supply alone,
        List.Forall₂ (fun call other => ∃ now, other = call.at now)
          (calls.filter fun call => call.target? = some name) alone →
        List.Forall₂ (Sight.Related w.trail.Alike) (w.sights accepted name calls)
          ((w.redraw supply).sights accepted name alone)) := by
  constructor
  · have same : Matched Eq accepted w.trail name w w := .refl (fun _ => rfl) ready
    have related := same.sights_eq fixed
    rw [← List.forall₂_eq_eq_eq]
    exact related.imp fun _ _ => Sight.eq_of_related
  · intro blind supply alone own_calls
    have same : Matched w.trail.Alike accepted w.trail name w w :=
      .refl (Event.Alike.refl _ _) ready
    exact (same.redraw supply).sights_alike blind fixed own_calls

/-- A trail in memory that holds events until a commit, seals passwords and leaves drafts out. -/
def guarded : Workspace MemorySink :=
  new {
    Trail.new ⟨0, []⟩ { PolicyStore.standard with
      live := { LivePolicy.standard with
        policy := { Policy.standard with transactional := true, verbose := true } } } with
    gate := .ofHandlers [.typeFilter ["Draft"]]
    sealer := some (Keyring.new "k1" ⟨List.replicate 32 7, rfl⟩).sealText
    registry := OrderedMap.empty.insert "Order" ⟨none, true⟩ }

theorem guarded_blind : guarded.trail.Blind := by
  intro h member a b alike
  obtain rfl : h = .typeFilter ["Draft"] := List.mem_singleton.1 member
  exact Handler.typeFilter_handle alike.entityType

/-- Two orders, of which one is rolled back before the other is committed. -/
def checkouts : List Call :=
  [.begin "paid", .begin "doomed",
    .record (some "doomed") .epoch ((Record.new "Order" "2").set "password" (.string "a")) .insert,
    .record (some "paid") .epoch ((Record.new "Order" "1").set "password" (.string "b")) .insert,
    .rollback "doomed", .commit "paid"]

/-- An order beside one that is rolled back, and the same order alone, with other nonces. -/
theorem run_isolated_beside_rollback :
    TakesAll MemorySink.events guarded.trail.sink ∧
      (∀ call ∈ checkouts, call.isSetup = false) ∧ guarded.trail.Blind ∧
      guarded.sights MemorySink.events "paid" checkouts =
        guarded.sightsAlone MemorySink.events "paid" guarded checkouts ∧
      List.Forall₂ (Sight.Related guarded.trail.Alike)
        (guarded.sights MemorySink.events "paid" checkouts)
        (guarded.sights MemorySink.events "paid"
          (checkouts.filter fun call => call.target? = some "paid")) ∧
      (guarded.sights MemorySink.events "paid" checkouts).map
          (fun s => (s.answer.toOption, s.delivered.length)) =
        [(some 0, 0), (some 1, 0), (some 1, 1)] := by
  have ready : TakesAll MemorySink.events guarded.trail.sink := MemorySink.takesAll []
  have fixed : ∀ call ∈ checkouts, call.isSetup = false := by simp [checkouts, Call.isSetup]
  have isolated := run_isolated guarded ready "paid" checkouts fixed
  refine ⟨ready, fixed, guarded_blind, isolated.1, ?_, rfl⟩
  refine isolated.2 guarded_blind .fresh _ (List.forall₂_same.2 ?_)
  intro call _
  exact ⟨call.time, call.at_time.symm⟩

end Workspace

end ChangeAudit
