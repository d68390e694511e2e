import ChangeAudit.Transition

/-!
# What is recorded without sealing

If no value is sealed, what an event shows of a value depends on the policy, the property and the
value alone (`Policy.shown`), and the events of a transition depend on nothing that is drawn afresh
but their ids (`Transition.events_unsealed`).
-/

namespace ChangeAudit

/-- The event without its id. -/
def Event.withoutId (e : Event) : Event := { e with id := "" }

/-- No value is sealed: there is no sealer, or it fails whatever it is given. -/
def Unsealed (sealer : Option Sealer) : Prop :=
  ∀ sealWith ∈ sealer, ∀ nonce property plain, ∃ e, sealWith nonce property plain = .error e

theorem unsealed_none : Unsealed none := by
  intro sealWith given
  nomatch given

/-- The shown text of a value that is not sealed. -/
def Policy.shown (policy : Policy) (property : String) (value : Json) : Option String :=
  (plainText value).map fun plain =>
    if policy.isMasked property then hiddenText else cutText policy.truncateLength plain

/-- The event of a change whose values are not sealed, without its id. -/
def Occasion.changeEvent (o : Occasion) (policy : Policy) (c : Change) : Event :=
  o.event "" (some c.property) (policy.shown c.property c.old) (policy.shown c.property c.new)

/-- The occasion of a transition of a record. -/
def Transition.occasion (transition : Transition) (actor : Option String) (now : Instant)
    (record : Record) : Occasion :=
  ⟨transition.kind, record.entityType, record.id, actor, now⟩

section

variable {policy : Policy} {sealer : Option Sealer}

theorem maskText_unsealed (unsealed : Unsealed sealer) (property plain : String)
    (supply : Supply) : (maskText sealer property plain supply).1 = hiddenText := by
  cases sealer with
  | none => rfl
  | some sealWith =>
    obtain ⟨e, failed⟩ := unsealed sealWith rfl supply.nonce.1 property plain
    simp only [maskText, failed]

theorem showValue_unsealed (unsealed : Unsealed sealer) (property : String) (value : Json)
    (supply : Supply) :
    (showValue policy sealer property value supply).1 = policy.shown property value := by
  unfold showValue Policy.shown
  cases plainText value with
  | none => rfl
  | some plain =>
    by_cases masked : policy.isMasked property = true
    · simp only [masked, if_true, maskText_unsealed unsealed, Option.map_some]
    · simp only [masked, Option.map_some]
      rfl

theorem changeEvents_unsealed (unsealed : Unsealed sealer) (o : Occasion) (changes : List Change)
    (supply : Supply) :
    (changeEvents policy sealer o changes supply).1.map Event.withoutId =
      changes.map (o.changeEvent policy) := by
  induction changes generalizing supply with
  | nil => rfl
  | cons c changes ih =>
    rw [changeEvents, List.map_cons, List.map_cons, ih, showValue_unsealed unsealed,
      showValue_unsealed unsealed]
    rfl

/-- Under a verbose policy a transition is recorded change by change. -/
theorem Transition.events_verbose (transition : Transition) (verbose : policy.verbose = true)
    (actor : Option String) (now : Instant) (record : Record) (supply : Supply) :
    transition.events policy sealer actor now record supply =
      changeEvents policy sealer (transition.occasion actor now record)
        (transition.changes policy record.snapshot) supply := by
  simp only [events, verbose, if_true, occasion]

theorem Transition.events_unsealed (unsealed : Unsealed sealer) (transition : Transition)
    (verbose : policy.verbose = true) (actor : Option String) (now : Instant) (record : Record)
    (supply : Supply) :
    (transition.events policy sealer actor now record supply).1.map Event.withoutId =
      (transition.changes policy record.snapshot).map
        ((transition.occasion actor now record).changeEvent policy) := by
  rw [transition.events_verbose verbose, changeEvents_unsealed unsealed]

/-- Any other policy makes a summary, unless an update changed nothing. -/
theorem Transition.events_quiet (transition : Transition) (quiet : policy.verbose = false)
    (actor : Option String) (now : Instant) (record : Record) (supply : Supply) :
    (transition.events policy sealer actor now record supply).1.map Event.withoutId =
      if transition.kind = .update ∧ transition.changes policy record.snapshot = [] then []
      else [(transition.occasion actor now record).event "" none none none] := by
  simp only [events, quiet, Bool.false_eq_true, if_false]
  cases transition with
  | insert => rfl
  | delete => rfl
  | update previous =>
    cases changed : (Transition.update previous).changes policy record.snapshot with
    | nil => rfl
    | cons c changes => rfl

end

end ChangeAudit
