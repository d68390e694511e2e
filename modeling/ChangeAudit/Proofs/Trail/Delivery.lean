import ChangeAudit.Proofs.Gate
import ChangeAudit.Proofs.Instant
import ChangeAudit.Proofs.Transition
import ChangeAudit.Trail

/-!
# From a transition to a sink

What the operations of a trail do to its events. Observing a transition changes the counters of the
gate and the supply, nothing else, and every event it lets pass is of a type that is registered as
audited. A delivery is one batch that the sink takes or refuses (`Offered`), whatever the sink promises
of the events that it has accepted: that it adds a batch whole or not at all (`AllOrNothing`), that it
shows the latest of them (`Window`), or that it takes every batch (`TakesAll`). In a transaction a
transition is held back exactly when the live policy is transactional; otherwise it is recorded as it
is directly on the trail.
-/

namespace ChangeAudit

variable {σ : Type}

/-- What a sink promises about the events that it has accepted: a batch is added whole, in its
order, or refused whole. -/
structure AllOrNothing [EventSink σ] (accepted : σ → List Event) : Prop where
  accept : ∀ s batch, (EventSink.emit s batch).2 = .ok () →
    accepted (EventSink.emit s batch).1 = accepted s ++ batch
  refuse : ∀ s batch e, (EventSink.emit s batch).2 = .error e →
    accepted (EventSink.emit s batch).1 = accepted s

/-- What becomes of a sink in a delivery: it is not called, takes what is sent as one batch, or
refuses a batch, of which then nothing is sent. -/
inductive Offered [EventSink σ] (before after : σ) (sent : List Event) : Prop
  | idle (same : after = before) (nothing : sent = [])
  | taken (offer : after = (EventSink.emit before sent).1)
      (answer : (EventSink.emit before sent).2 = .ok ())
  | refused (batch : List Event) (e : Fault) (offer : after = (EventSink.emit before batch).1)
      (answer : (EventSink.emit before batch).2 = .error e) (nothing : sent = [])

theorem AllOrNothing.offered [EventSink σ] {accepted : σ → List Event} (law : AllOrNothing accepted)
    {before after : σ} {sent : List Event} (offered : Offered before after sent) :
    accepted after = accepted before ++ sent := by
  cases offered with
  | idle same nothing => rw [same, nothing, List.append_nil]
  | taken offer answer => rw [offer, law.accept _ _ answer]
  | refused batch e offer answer nothing =>
    rw [offer, law.refuse _ _ _ answer, nothing, List.append_nil]

/-- What a sink promises of the events that it shows if it forgets the oldest that it accepted. -/
structure Window [EventSink σ] (shown : σ → List Event) : Prop where
  accept : ∀ s batch, (EventSink.emit s batch).2 = .ok () →
    shown (EventSink.emit s batch).1 <:+ shown s ++ batch
  refuse : ∀ s batch e, (EventSink.emit s batch).2 = .error e →
    shown (EventSink.emit s batch).1 <:+ shown s

theorem Window.offered [EventSink σ] {shown : σ → List Event} (law : Window shown)
    {before after : σ} {sent : List Event} (offered : Offered before after sent) :
    shown after <:+ shown before ++ sent := by
  cases offered with
  | idle same nothing => simp [same, nothing]
  | taken offer answer => exact offer ▸ law.accept _ _ answer
  | refused batch e offer answer nothing =>
    rw [nothing, List.append_nil]
    exact offer ▸ law.refuse _ _ _ answer

/-- From the state `s` on, the sink takes every batch, in its order. -/
def TakesAll [EventSink σ] (accepted : σ → List Event) (s : σ) : Prop :=
  ∀ (batches : List (List Event)) (batch : List Event),
    let after := batches.foldl (fun s b => (EventSink.emit s b).1) s
    (EventSink.emit after batch).2 = .ok () ∧
      accepted (EventSink.emit after batch).1 = accepted after ++ batch

theorem TakesAll.emit [EventSink σ] {accepted : σ → List Event} {s : σ}
    (ready : TakesAll accepted s) (batch : List Event) :
    TakesAll accepted (EventSink.emit s batch).1 :=
  fun batches => ready (batch :: batches)

/-- Without a capacity, the sink in memory takes all. -/
theorem MemorySink.takesAll (events : List Event) : TakesAll MemorySink.events ⟨0, events⟩ := by
  intro batches
  induction batches generalizing events with
  | nil =>
    intro batch
    exact ⟨rfl, rfl⟩
  | cons first batches ih => exact ih (events ++ first)

/-- A sink that refuses its next batches as a script tells, and accepts all after the script. -/
structure ScriptedSink where
  refusals : List Bool
  accepted : List Event

namespace ScriptedSink

instance : EventSink ScriptedSink where
  name _ := "scripted"
  emit s batch :=
    match s.refusals with
    | true :: rest => ({ s with refusals := rest }, .error (.sink (.refused "storage offline")))
    | false :: rest => (⟨rest, s.accepted ++ batch⟩, .ok ())
    | [] => (⟨[], s.accepted ++ batch⟩, .ok ())

theorem allOrNothing : AllOrNothing ScriptedSink.accepted where
  accept s batch taken := by
    obtain ⟨_ | ⟨_ | _, rest⟩, events⟩ := s
    · rfl
    · rfl
    · nomatch taken
  refuse s batch e refused := by
    obtain ⟨_ | ⟨_ | _, rest⟩, events⟩ := s
    · nomatch refused
    · nomatch refused
    · rfl

end ScriptedSink

namespace Trail

/-- The events of a transition that pass the gate. -/
def passed (t : Trail σ) (now : Instant) (record : Record) (transition : Transition) :
    List Event :=
  (t.observe now record transition).2.1

/-- Trails of one setup: at most their sinks, the counters of their gates and what they draw from
differ. -/
structure SameSetup (t u : Trail σ) : Prop where
  store : t.store = u.store
  registry : t.registry = u.registry
  sealer : t.sealer = u.sealer
  handlers : t.gate.handlers = u.gate.handlers

theorem SameSetup.refl (t : Trail σ) : SameSetup t t := ⟨rfl, rfl, rfl, rfl⟩

theorem SameSetup.trans {t u v : Trail σ} (h : SameSetup t u) (k : SameSetup u v) :
    SameSetup t v where
  store := h.store.trans k.store
  registry := h.registry.trans k.registry
  sealer := h.sealer.trans k.sealer
  handlers := h.handlers.trans k.handlers

section Observe

variable (t : Trail σ) (now : Instant) (record : Record) (transition : Transition)

@[simp] theorem observe_sink : (t.observe now record transition).1.sink = t.sink := by
  unfold observe
  split <;> rfl

@[simp] theorem observe_store : (t.observe now record transition).1.store = t.store := by
  unfold observe
  split <;> rfl

@[simp] theorem observe_registry :
    (t.observe now record transition).1.registry = t.registry := by
  unfold observe
  split <;> rfl

@[simp] theorem observe_sealer : (t.observe now record transition).1.sealer = t.sealer := by
  unfold observe
  split <;> rfl

@[simp] theorem observe_handlers :
    (t.observe now record transition).1.gate.handlers = t.gate.handlers := by
  unfold observe
  split
  · exact Gate.filter_handlers _ _
  · rfl

/-- The live policy decides whether events wait; without events there is nothing to decide. -/
theorem observe_held :
    (t.observe now record transition).2.2 = t.store.live.policy.transactional ∨
      t.observe now record transition = (t, [], false) := by
  unfold observe
  split
  · exact .inl rfl
  · exact .inr rfl

/-- Observing a transition changes nothing of the setup. -/
theorem observe_sameSetup : SameSetup (t.observe now record transition).1 t where
  store := observe_store ..
  registry := observe_registry ..
  sealer := observe_sealer ..
  handlers := observe_handlers ..

theorem passed_of_audited {plan : Option StampPlan}
    (audited : t.options? record.entityType = some ⟨plan, true⟩) :
    t.passed now record transition =
      ((transition.events t.store.live.policy t.sealer t.store.live.actor now record t.supply).1.filter
        fun e => !t.gate.suppresses e) := by
  unfold passed observe
  rw [audited]
  exact Gate.filter_kept _ _

theorem passed_of_not_audited
    (other : ¬ ∃ plan, t.options? record.entityType = some ⟨plan, true⟩) :
    t.passed now record transition = [] := by
  unfold passed observe
  split
  · rename_i plan registered
    exact absurd ⟨plan, registered⟩ other
  · rfl

/-- Only records of types that are registered as audited have events. -/
theorem audited_of_mem_passed {e : Event} (member : e ∈ t.passed now record transition) :
    ∃ plan, t.options? e.entityType = some ⟨plan, true⟩ := by
  by_cases audited : ∃ plan, t.options? record.entityType = some ⟨plan, true⟩
  · obtain ⟨plan, registered⟩ := audited
    rw [passed_of_audited t now record transition registered] at member
    have produced := (List.mem_filter.1 member).1
    rw [Transition.events_entityType produced]
    exact ⟨plan, registered⟩
  · rw [passed_of_not_audited t now record transition audited] at member
    nomatch member

end Observe

variable [EventSink σ]

@[simp] theorem deliver_nil (t : Trail σ) : t.deliver [] = (t, .ok 0) := rfl

/-- A batch that is not empty is one call of the sink. -/
theorem deliver_of_ne_nil (t : Trail σ) {batch : List Event} (h : batch ≠ []) :
    t.deliver batch = ({ t with sink := (EventSink.emit t.sink batch).1 },
      (EventSink.emit t.sink batch).2.map fun _ => batch.length) := by
  rw [deliver, if_neg h]
  split
  · rename_i answered
    simp [answered, Except.map]
  · rename_i answered
    simp [answered, Except.map]

/-- A delivery changes nothing of the setup. -/
theorem deliver_sameSetup (t : Trail σ) (batch : List Event) :
    SameSetup (t.deliver batch).1 t := by
  by_cases h : batch = []
  · rw [h, deliver_nil]
    exact .refl t
  · rw [deliver_of_ne_nil t h]
    exact ⟨rfl, rfl, rfl, rfl⟩

/-- A sink that takes all has the batch after a delivery, and goes on taking all. -/
theorem deliver_takes {accepted : σ → List Event} {t : Trail σ} (ready : TakesAll accepted t.sink)
    (batch : List Event) :
    (t.deliver batch).2 = .ok batch.length ∧
      accepted (t.deliver batch).1.sink = accepted t.sink ++ batch ∧
      TakesAll accepted (t.deliver batch).1.sink := by
  by_cases h : batch = []
  · rw [h, deliver_nil, List.append_nil]
    exact ⟨rfl, rfl, ready⟩
  · obtain ⟨answer, taken⟩ := ready [] batch
    rw [deliver_of_ne_nil t h]
    exact ⟨congrArg (Except.map _) answer, taken, ready.emit batch⟩

/-- A delivery sends the batch and answers its length, or fails and sends nothing. -/
theorem deliver_offered (t : Trail σ) (batch : List Event) :
    ((t.deliver batch).2 = .ok batch.length ∧
        Offered t.sink (t.deliver batch).1.sink batch) ∨
      ∃ e, (t.deliver batch).2 = .error e ∧ Offered t.sink (t.deliver batch).1.sink [] := by
  by_cases h : batch = []
  · subst h
    exact .inl ⟨rfl, .idle rfl rfl⟩
  · rw [deliver_of_ne_nil t h]
    cases answer : (EventSink.emit t.sink batch).2 with
    | ok taken => exact .inl ⟨rfl, .taken rfl answer⟩
    | error e => exact .inr ⟨e, rfl, .refused batch e rfl answer rfl⟩

/-- Recording directly delivers the events that pass. -/
theorem record_eq (t : Trail σ) (now : Instant) (record : Record) (transition : Transition) :
    t.record now record transition =
      (t.observe now record transition).1.deliver (t.passed now record transition) := rfl

theorem record_offered (t : Trail σ) (now : Instant) (record : Record) (transition : Transition) :
    ((t.record now record transition).2 = .ok (t.passed now record transition).length ∧
        Offered t.sink (t.record now record transition).1.sink (t.passed now record transition)) ∨
      ∃ e, (t.record now record transition).2 = .error e ∧
        Offered t.sink (t.record now record transition).1.sink [] := by
  have delivered := deliver_offered (t.observe now record transition).1
    (t.passed now record transition)
  rwa [observe_sink] at delivered

theorem record_takes {accepted : σ → List Event} {t : Trail σ} (ready : TakesAll accepted t.sink)
    (now : Instant) (record : Record) (transition : Transition) :
    (t.record now record transition).2 = .ok (t.passed now record transition).length ∧
      accepted (t.record now record transition).1.sink =
        accepted t.sink ++ t.passed now record transition := by
  have kept := t.observe_sink now record transition
  obtain ⟨answer, taken, -⟩ :=
    deliver_takes (kept.symm ▸ ready) (t.passed now record transition)
  rw [kept] at taken
  exact ⟨answer, taken⟩

end Trail

namespace Transaction

variable [EventSink σ]

theorem record_eq (x : Transaction) (t : Trail σ) (now : Instant) (record : Record)
    (transition : Transition) :
    x.record t now record transition =
      if (t.observe now record transition).2.2 then
        (⟨x.pending ++ t.passed now record transition⟩, (t.observe now record transition).1,
          .ok (t.passed now record transition).length)
      else (x, t.record now record transition) := rfl

/-- Under a transactional policy the events that pass wait in the transaction. -/
theorem record_held (x : Transaction) {t : Trail σ}
    (h : t.store.live.policy.transactional = true) (now : Instant) (record : Record)
    (transition : Transition) :
    x.record t now record transition =
      (⟨x.pending ++ t.passed now record transition⟩, (t.observe now record transition).1,
        .ok (t.passed now record transition).length) := by
  rcases t.observe_held now record transition with held | nothing
  · rw [record_eq, held, h, if_pos rfl]
  -- nothing passes, so that it does not matter on which of the two ways
  · simp [record_eq, Trail.record_eq, Trail.passed, nothing]

/-- Under any other policy a transaction records as its trail does. -/
theorem record_immediate (x : Transaction) {t : Trail σ}
    (h : t.store.live.policy.transactional = false) (now : Instant) (record : Record)
    (transition : Transition) :
    x.record t now record transition = (x, t.record now record transition) := by
  have waits : (t.observe now record transition).2.2 = false := by
    rcases t.observe_held now record transition with held | nothing
    · rw [held, h]
    · rw [nothing]
  rw [record_eq, waits]
  rfl

theorem commit_trail (x : Transaction) (t : Trail σ) :
    (x.commit t).2.1 = (t.deliver x.pending).1 := by
  unfold commit
  split <;> rename_i delivered <;> rw [delivered]

theorem commit_of_ok {x : Transaction} {t : Trail σ} {n : Nat}
    (answer : (t.deliver x.pending).2 = .ok n) :
    x.commit t = (.empty, (t.deliver x.pending).1, .ok n) := by
  have delivered : t.deliver x.pending = ((t.deliver x.pending).1, .ok n) := Prod.ext rfl answer
  rw [commit, delivered]
  rfl

theorem commit_of_error {x : Transaction} {t : Trail σ} {e : Fault}
    (answer : (t.deliver x.pending).2 = .error e) :
    x.commit t = (x, (t.deliver x.pending).1, .error e) := by
  have failed : t.deliver x.pending = ((t.deliver x.pending).1, .error e) := Prod.ext rfl answer
  rw [commit, failed]

/-- A commit delivers the waiting events and empties the transaction, or fails and keeps them. -/
theorem commit_offered (x : Transaction) (t : Trail σ) :
    (x.commit t = (.empty, (t.deliver x.pending).1, .ok x.pending.length) ∧
        Offered t.sink (t.deliver x.pending).1.sink x.pending) ∨
      ∃ e, x.commit t = (x, (t.deliver x.pending).1, .error e) ∧
        Offered t.sink (t.deliver x.pending).1.sink [] := by
  rcases Trail.deliver_offered t x.pending with ⟨answer, taken⟩ | ⟨e, answer, left⟩
  · exact .inl ⟨commit_of_ok answer, taken⟩
  · exact .inr ⟨e, commit_of_error answer, left⟩

/-- Over a sink that takes all, a commit delivers the waiting events. -/
theorem commit_takes {accepted : σ → List Event} {t : Trail σ} (ready : TakesAll accepted t.sink)
    (x : Transaction) :
    x.commit t = (.empty, (t.deliver x.pending).1, .ok x.pending.length) ∧
      accepted (t.deliver x.pending).1.sink = accepted t.sink ++ x.pending := by
  obtain ⟨answer, taken, -⟩ := Trail.deliver_takes ready x.pending
  exact ⟨commit_of_ok answer, taken⟩

end Transaction

end ChangeAudit
