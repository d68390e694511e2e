import ChangeAudit.Proofs.Stamping
import ChangeAudit.Proofs.Trail.Delivery
import ChangeAudit.Proofs.Transition.Exchange

/-!
# Stamps that are not recorded

Before an update is recorded it is stamped: the fields of the last change are written. Records that
differ in ignored stamps at most (`Record.AlikeFor`) show a policy the same properties, also where a
stamp covers a property of its name or is written for the first time, and whatever the host does to
the properties of both. So under a policy that ignores the fields of the last change a stamped record
is recorded as the record itself (`Trail.unseen_of_stamp`), and an update that only stamps is not
recorded at all.
-/

namespace ChangeAudit

variable {policy : Policy}

/-! ## Records that differ in ignored stamps -/

/-- The record after the host changed its properties. -/
def Record.edit (r : Record) (change : Snapshot → Snapshot) : Record :=
  { r with properties := change r.properties }

/-- Records that are the same apart from stamps that the policy ignores. -/
structure Record.AlikeFor (policy : Policy) (a b : Record) : Prop where
  entityType : a.entityType = b.entityType
  id : a.id = b.id
  properties : a.properties = b.properties
  stamps : a.stamps.entries.filter (fun e => !policy.isIgnored e.1) =
    b.stamps.entries.filter fun e => !policy.isIgnored e.1

namespace Record.AlikeFor

variable {a b c : Record}

theorem refl (r : Record) : AlikeFor policy r r := ⟨rfl, rfl, rfl, rfl⟩

theorem trans (h : AlikeFor policy a b) (k : AlikeFor policy b c) : AlikeFor policy a c where
  entityType := h.entityType.trans k.entityType
  id := h.id.trans k.id
  properties := h.properties.trans k.properties
  stamps := h.stamps.trans k.stamps

theorem setStamp {field : String} (ignored : policy.isIgnored field = true) (r : Record)
    (value : StampValue) : AlikeFor policy (r.setStamp field value) r where
  entityType := rfl
  id := rfl
  properties := rfl
  stamps := by
    rw [Record.setStamp, OrderedMap.insert, Entries.filter_insert (fun key => !policy.isIgnored key)]
    simp [ignored]

theorem writeRoles {plan : StampPlan} {roles : List StampRole}
    (ignored : ∀ role ∈ roles, ∀ field, plan.fieldName? role = some field →
      policy.isIgnored field = true) (value : StampValue) (r : Record) :
    AlikeFor policy (plan.writeRoles value r roles) r := by
  have each : ∀ field ∈ roles.filterMap plan.fieldName?, policy.isIgnored field = true := by
    intro field member
    obtain ⟨role, listed, named⟩ := List.mem_filterMap.1 member
    exact ignored role listed field named
  rw [StampPlan.writeRoles]
  generalize roles.filterMap plan.fieldName? = fields at each
  induction fields generalizing r with
  | nil => exact refl r
  | cons field fields ih =>
    obtain ⟨first, later⟩ := List.forall_mem_cons.1 each
    exact (ih _ later).trans (setStamp first r value)

/-- An update writes the fields of the last change and no others. -/
theorem stampAt {plan : StampPlan} {actor : Option String} {now : Instant} {record stamped : Record}
    (ignored : ∀ role ∈ [StampRole.lastUpdated, .lastUpdatedBy], ∀ field,
      plan.fieldName? role = some field → policy.isIgnored field = true)
    (succeeded : ChangeAudit.stampAt plan .beforeUpdate actor now record = .ok stamped) :
    AlikeFor policy stamped record := by
  obtain ⟨time, signature⟩ := List.forall_mem_cons.1 ignored
  have timed : AlikeFor policy (plan.writeRoles (.timestamp now) record [.lastUpdated]) record :=
    writeRoles (List.forall_mem_singleton.2 time) _ record
  rw [StampPlan.stampAt_eq_ok succeeded]
  cases actor with
  | none => exact timed
  | some actor => exact (writeRoles signature (.actor actor) _).trans timed

theorem edit (alike : AlikeFor policy a b) (change : Snapshot → Snapshot) :
    AlikeFor policy (a.edit change) (b.edit change) where
  entityType := alike.entityType
  id := alike.id
  properties := congrArg change alike.properties
  stamps := alike.stamps

/-! ## They are recorded alike -/

theorem watched (alike : AlikeFor policy a b) :
    policy.watched a.snapshot.entries = policy.watched b.snapshot.entries := by
  have shown (r : Record) : policy.watched r.snapshot.entries =
      Entries.insertAll (policy.watched r.properties.entries)
        ((r.stamps.entries.filter fun e => !policy.isIgnored e.1).map
          fun e => (e.1, e.2.property)) := by
    rw [Record.snapshot, OrderedMap.insertAll, Policy.watched,
      Entries.filter_insertAll (fun key => !policy.isIgnored key), List.filter_map]
    rfl
  rw [shown, shown, alike.properties, alike.stamps]

theorem events (alike : AlikeFor policy a b) (transition : Transition) (sealer : Option Sealer)
    (actor : Option String) (now : Instant) (supply : Supply) :
    transition.events policy sealer actor now a supply =
      transition.events policy sealer actor now b supply := by
  have changes : transition.changes policy a.snapshot = transition.changes policy b.snapshot := by
    cases transition <;> simp only [Transition.changes, alike.watched]
  simp only [Transition.events, changes, alike.entityType, alike.id]

theorem observe {σ : Type} {t : Trail σ} (alike : AlikeFor t.store.live.policy a b) (now : Instant)
    (transition : Transition) : t.observe now a transition = t.observe now b transition := by
  simp only [Trail.observe, alike.entityType, alike.events transition]

end Record.AlikeFor

/-! ## An update without changes -/

/-- Nothing changes between a snapshot and itself. -/
theorem updateChanges_self {entries : List (String × Json)}
    (distinct : (Entries.keys entries).Nodup) (each : ∀ p ∈ entries, p.2.KeysDistinct) :
    updateChanges entries entries = [] := by
  rw [List.eq_nil_iff_forall_not_mem]
  intro c member
  obtain ⟨old, new, differs⟩ := (mem_updateChanges_iff distinct distinct).1 member
  have value : c.new.KeysDistinct := by
    rw [new]
    cases found : Entries.get? entries c.property with
    | none => exact .null
    | some v => exact each _ (Entries.mem_of_get? found)
  rw [old, ← new, value.same_refl] at differs
  nomatch differs

theorem Transition.events_of_no_changes {previous : Snapshot} {record : Record}
    (none : (update previous).changes policy record.snapshot = []) (sealer : Option Sealer)
    (actor : Option String) (now : Instant) (supply : Supply) :
    (update previous).events policy sealer actor now record supply = ([], supply) := by
  unfold events
  rw [none]
  split <;> rfl

namespace Trail

variable {σ : Type}

/-- An update of a record against its own snapshot is observed as nothing. -/
theorem observe_update_self {t : Trail σ} {record : Record} (distinct : record.KeysDistinct)
    (now : Instant) :
    ∃ held, t.observe now record (.update record.snapshot) = (t, [], held) := by
  have unchanged : (Transition.update record.snapshot).changes t.store.live.policy
      record.snapshot = [] :=
    updateChanges_self (Policy.nodup_watched _ _) (Policy.watched_keysDistinct _ distinct)
  unfold observe
  split
  · simp only [Transition.events_of_no_changes unchanged, Gate.filter]
    exact ⟨_, rfl⟩
  · exact ⟨_, rfl⟩

/-- The stamps of a record are not seen: whatever the host changes and whichever transition follows,
the trail observes the same events and is left the same, and so the record is delivered or held back
as it would be without the stamps. An update that changes nothing else reaches neither the sink nor
the transaction. -/
structure Unseen [EventSink σ] (t : Trail σ) (record stamped : Record) : Prop where
  observed : ∀ now change transition,
    t.observe now (stamped.edit change) transition = t.observe now (record.edit change) transition
  recorded : ∀ now change transition,
    t.record now (stamped.edit change) transition = t.record now (record.edit change) transition
  transacted : ∀ (x : Transaction) now change transition,
    x.record t now (stamped.edit change) transition = x.record t now (record.edit change) transition
  silent : record.KeysDistinct → ∀ now,
    t.record now stamped (.update record.snapshot) = (t, .ok 0) ∧
      ∀ x : Transaction, x.record t now stamped (.update record.snapshot) = (x, t, .ok 0)

/-- **Stamping an update is not recorded when its fields are ignored**: if the live policy ignores
the fields of the last change, as far as the plan of the type keeps them, then a record that was
stamped before its update is recorded as it would be without. -/
theorem unseen_of_stamp [EventSink σ] {t : Trail σ} {record stamped : Record} {plan : StampPlan}
    {stampedAt : Instant} (registered : t.options? record.entityType = some ⟨some plan, true⟩)
    (ignored : ∀ role ∈ [StampRole.lastUpdated, .lastUpdatedBy], ∀ field,
      plan.fieldName? role = some field → t.store.live.policy.isIgnored field = true)
    (succeeded : t.stamp .beforeUpdate stampedAt record = .ok stamped) :
    Unseen t record stamped := by
  have alike : stamped.AlikeFor t.store.live.policy record := by
    rw [stamp, registered] at succeeded
    exact .stampAt ignored succeeded
  have observed (now : Instant) (change : Snapshot → Snapshot) (transition : Transition) :=
    (alike.edit change).observe (t := t) now transition
  refine ⟨observed, ?_, ?_, ?_⟩
  · intro now change transition
    simp only [Trail.record, observed]
  · intro x now change transition
    simp only [Transaction.record, observed]
  · intro distinct now
    obtain ⟨held, nothing⟩ := observe_update_self (t := t) distinct now
    rw [← alike.observe] at nothing
    constructor
    · simp only [Trail.record, nothing, deliver_nil]
    · intro x
      simp only [Transaction.record, nothing, deliver_nil, List.append_nil, List.length_nil,
        ite_self]

/-- An order whose time of change is also a property: the host writes that property and the total
after it was stamped for the first time. -/
theorem unseen_of_stamp_shadowing : ∃ (t : Trail MemorySink) (plan : StampPlan)
    (record stamped : Record),
    t.options? record.entityType = some ⟨some plan, true⟩ ∧
      (∀ role ∈ [StampRole.lastUpdated, .lastUpdatedBy], ∀ field,
        plan.fieldName? role = some field → t.store.live.policy.isIgnored field = true) ∧
      t.stamp .beforeUpdate .epoch record = .ok stamped ∧ Unseen t record stamped ∧
      stamped.stamp? "lastUpdated" = some (.timestamp .epoch) ∧
      (t.record .epoch (stamped.edit fun s => (s.insert "lastUpdated" .null).insert "total" (.nat 3))
        (.update record.snapshot)).2 = .ok 1 := by
  let plan : StampPlan := ⟨StampPlan.standardRoles⟩
  let t : Trail MemorySink :=
    (Trail.new ⟨0, []⟩ .standard).register "Order" ⟨some plan, true⟩
  let record : Record :=
    ⟨"Order", "1", .ofList [("lastUpdated", .string "yesterday"), ("total", .nat 2)], .empty⟩
  have ignored : ∀ role ∈ [StampRole.lastUpdated, .lastUpdatedBy], ∀ field,
      plan.fieldName? role = some field → t.store.live.policy.isIgnored field = true := by
    intro role listed field named
    simp only [List.mem_cons, List.not_mem_nil, or_false] at listed
    rcases listed with rfl | rfl
    · cases named
      rfl
    · cases named
      rfl
  exact ⟨t, plan, record, _, rfl, ignored, rfl, unseen_of_stamp rfl ignored rfl, rfl, rfl⟩

end Trail

end ChangeAudit
