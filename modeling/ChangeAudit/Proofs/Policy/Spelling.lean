import ChangeAudit.Proofs.Policy.Layered

/-!
# Spellings in the documents of a store

Documents are layered by the keys as they are written, and spellings are told apart from attributes
only when the whole is read. So a document that a fresh store accepts need not be accepted over
defaults that make a policy: an attribute that the two spell in different ways is given twice
(`PolicyStore.reload_fails_between_spellings`). That, and a kind that both write as an object, is all
that can go wrong with the form of the overrides; otherwise each attribute is that of the topmost
document that gives it, however it is spelled (`PolicyStore.overrides_layered`).
-/

namespace ChangeAudit

namespace PolicyStore

/-! ## Stores hold settled documents -/

/-- Both documents of the store can be layered. -/
def Settled (s : PolicyStore) : Prop := s.defaults.Settled ∧ s.primary.Settled

/-- No object in a document that the operation brings has a key twice. -/
def Operation.KeysDistinct : Operation → Prop
  | .load source | .reload source | .loadSecondary source => source.KeysDistinct
  | .reset | .setResolver _ | .setSession _ => True

theorem standard_settled : standard.Settled := by
  refine ⟨⟨⟨_, rfl⟩, .object (by decide) ?_, rfl⟩, Json.emptyObject_settled⟩
  intro m member
  have strings (xs : List String) : (Json.strings xs).KeysDistinct := by
    apply Json.KeysDistinct.array
    intro x listed
    obtain ⟨s, -, rfl⟩ := List.mem_map.1 listed
    exact .string s
  simp only [List.mem_cons, List.not_mem_nil, or_false] at member
  rcases member with rfl | rfl | rfl | rfl
  · exact .bool false
  · exact .bool false
  · exact strings _
  · exact strings _

theorem Settled.step {s : PolicyStore} (settled : s.Settled) {files : FileArea} {op : Operation}
    (distinct : op.KeysDistinct) : (s.step files op).1.Settled := by
  cases op with
  | load source => exact settled
  | reload source =>
    simp only [PolicyStore.step, reload]
    split
    · exact settled
    · next primary read =>
      split
      · exact ⟨settled.1, PolicySource.read_settled distinct read⟩
      · exact settled
  | loadSecondary source =>
    simp only [PolicyStore.step, loadSecondary]
    split
    · exact settled
    · next extra read =>
      split
      · exact ⟨(PolicySource.read_settled distinct read).layer settled.1, settled.2⟩
      · exact settled
  | reset =>
    simp only [PolicyStore.step, reset]
    split
    · exact ⟨settled.1, Json.emptyObject_settled⟩
    · exact settled
  | setResolver r =>
    simp only [PolicyStore.step, setResolver, refresh]
    split <;> exact settled
  | setSession source =>
    simp only [PolicyStore.step, setSession, refresh]
    split <;> exact settled

/-! ## Putting documents over one another in a store -/

theorem policyOf_eq_invalid_iff {document : Json} :
    policyOf document = .error .invalid ↔ Policy.decode? document.toTerm = none := by
  unfold policyOf
  split
  · next none => simp [none]
  · next p read =>
    simp only [read, reduceCtorEq, iff_false]
    split <;> simp

/-- What becomes of a store in which these layers come together: the whole is refused as malformed
exactly if an attribute is spelled apart or a kind is crowded, and once it is accepted the override
of each role is the layered one. -/
structure Decides (layers : Layers) (outcome : PolicyStore × Except PolicyFault Unit) : Prop where
  malformed : outcome.2 = .error .invalid ↔
    ∃ role, (∃ a, layers.SpelledApart role a) ∨ layers.document.KindCrowded role
  overrides : outcome.2 = .ok () → ∀ role,
    outcome.1.live.policy.stamp.get? role = layers.override? role

/-- The answer of an operation that makes the policy of a document, and the policy it leaves. -/
inductive Makes (document : Json) : PolicyStore × Except PolicyFault Unit → Prop where
  | accepted {s : PolicyStore} (made : policyOf document = .ok s.live.policy) :
      Makes document (s, .ok ())
  | refused {s : PolicyStore} {e : PolicyFault} (failed : policyOf document = .error e) :
      Makes document (s, .error e)

theorem Makes.decides {layers : Layers} (accepted : ∀ l ∈ layers, Policy.Accepted l.1 l.2)
    {outcome : PolicyStore × Except PolicyFault Unit} (makes : Makes layers.document outcome) :
    Decides layers outcome := by
  have layered := Layered.of_accepted accepted
  have refusal : Policy.decode? layers.document.toTerm = none ↔
      ∃ role, (∃ a, layers.SpelledApart role a) ∨ layers.document.KindCrowded role := by
    rw [← Option.not_isSome_iff_eq_none, layered.isSome_policy_iff]
    simp only [not_forall, not_and_or, not_not]
  cases makes with
  | accepted made =>
    have read := (policyOf_eq_ok_iff.1 made).1
    constructor
    · rw [← refusal, read]
      simp
    · intro _ role
      exact layered.get?_stamp read role
  | refused failed =>
    constructor
    · rw [← refusal, ← policyOf_eq_invalid_iff, failed]
      simp
    · intro succeeded
      nomatch succeeded

theorem materialize_error {s : PolicyStore} {primary : Json} {e : PolicyFault}
    (h : s.materialize primary = .error e) : policyOf (s.defaults.layer primary) = .error e := by
  unfold materialize at h
  split at h
  · nomatch h
  · next failed =>
    cases h
    exact failed

theorem reload_makes {s : PolicyStore} {files : FileArea} {source : PolicySource} {document : Json}
    (read : source.read files = .ok document) :
    Makes (s.defaults.layer document) (s.reload files source) := by
  simp only [reload, read]
  split
  · next made => exact .accepted (materialize_eq_ok_iff.1 made).1
  · next failed => exact .refused (materialize_error failed)

theorem loadSecondary_makes {s : PolicyStore} {files : FileArea} {source : PolicySource}
    {document : Json} (read : source.read files = .ok document) :
    Makes ((document.layer s.defaults).layer s.primary) (s.loadSecondary files source) := by
  simp only [loadSecondary, read]
  split
  · next made => exact .accepted (materialize_eq_ok_iff.1 made).1
  · next failed => exact .refused (materialize_error failed)

theorem accepted_of_policyOf {document : Json} (settled : document.Settled)
    (form : document.ObjectForm) {p : Policy} (made : policyOf document = .ok p) :
    Policy.Accepted document p.stamp := by
  have read := (policyOf_eq_ok_iff.1 made).1
  have both := (Policy.decode?_settled settled p.stamp).1 (by rw [read]; rfl)
  exact ⟨settled, form, both.1, both.2⟩

/-- What a fresh store accepts is accepted for itself: the built-in defaults override nothing. -/
theorem accepted_of_standard {document : Json} (settled : document.Settled)
    (form : document.ObjectForm) {live : LivePolicy}
    (made : standard.materialize document = .ok live) :
    Policy.Accepted document live.policy.stamp := by
  have read := (policyOf_eq_ok_iff.1 (materialize_eq_ok_iff.1 made).1).1
  have both := (Policy.decode?_settled (standard_settled.1.layer settled) live.policy.stamp).1
    (by rw [read]; rfl)
  exact ⟨settled, form, plain_of_standard settled both.1,
    (overrides?_standard settled).symm.trans both.2⟩

/-- **Which spelling a document uses matters only beside another one**: over defaults that make a
policy, a document that a fresh store accepts is refused as malformed exactly if some attribute of
some role is spelled one way in the one and another way in the other, or if the kind of a role comes
out as an object of several members. Otherwise the override of each role has the attributes that the
document gives, however it spells them, and the others from the defaults. The same holds of the
document underneath the defaults, below a primary document that a fresh store accepts. -/
theorem overrides_layered {s : PolicyStore} (stored : s.Settled) (form : s.defaults.ObjectForm)
    {below : Policy} (standing : policyOf s.defaults = .ok below) {files : FileArea}
    {source : PolicySource} (distinct : source.KeysDistinct) {document : Json}
    (read : source.read files = .ok document) (form' : document.ObjectForm) {above : LivePolicy}
    (loaded : standard.load files source = .ok above) :
    Decides [(s.defaults, below.stamp), (document, above.policy.stamp)] (s.reload files source) ∧
      ∀ top, s.primary.ObjectForm → standard.materialize s.primary = .ok top →
        Decides [(document, above.policy.stamp), (s.defaults, below.stamp),
          (s.primary, top.policy.stamp)] (s.loadSecondary files source) := by
  have settled := PolicySource.read_settled distinct read
  have made : standard.materialize document = .ok above := by
    rw [load, read] at loaded
    exact loaded
  have lower := accepted_of_policyOf stored.1 form standing
  have upper := accepted_of_standard settled form' made
  constructor
  · apply Makes.decides
    · simp [lower, upper]
    · have base := Json.object_nil_layer stored.1.isObject
      rw [Layers.document, List.foldl_cons, Json.emptyObject, base]
      exact reload_makes read
  · intro top form'' primary
    have highest := accepted_of_standard stored.2 form'' primary
    apply Makes.decides
    · simp [lower, upper, highest]
    · have base := Json.object_nil_layer settled.isObject
      rw [Layers.document, List.foldl_cons, Json.emptyObject, base]
      exact loadSecondary_makes read

/-- A document of one override. -/
def overriding (role : String) (attributes : List (String × Json)) : Json :=
  .object [("stamp", .object [(role, .object attributes)])]

theorem overriding_objectForm (role : String) (attributes : List (String × Json)) :
    (overriding role attributes).ObjectForm := by
  intro other o found
  rw [Json.override?_eq] at found
  simp only [overriding, Json.get?, Entries.get?, if_true, Option.bind_some] at found
  split at found
  · cases found
    exact ⟨attributes, rfl⟩
  · cases found

theorem overriding_keysDistinct (role : String) {attributes : List (String × Json)}
    (distinct : (Json.object attributes).KeysDistinct) :
    (overriding role attributes).KeysDistinct := by
  refine .object (by simp [Entries.keys]) ?_
  intro m member
  rw [List.mem_singleton.1 member]
  refine .object (by simp [Entries.keys]) ?_
  intro m member
  rw [List.mem_singleton.1 member]
  exact distinct

/-- Defaults that name a field and require it, and a document that names it otherwise. -/
theorem overrides_layered_renamed : ∃ (s : PolicyStore) (source : PolicySource) (document : Json)
    (below : Policy) (above top : LivePolicy),
    s.Settled ∧ s.defaults.ObjectForm ∧ policyOf s.defaults = .ok below ∧ source.KeysDistinct ∧
      source.read .empty = .ok document ∧ document.ObjectForm ∧
      standard.load .empty source = .ok above ∧
      s.primary.ObjectForm ∧ standard.materialize s.primary = .ok top ∧
      Decides [(s.defaults, below.stamp), (document, above.policy.stamp)] (s.reload .empty source) ∧
      Decides [(document, above.policy.stamp), (s.defaults, below.stamp),
        (s.primary, top.policy.stamp)] (s.loadSecondary .empty source) ∧
      (s.reload .empty source).2 = .ok () ∧
      (s.reload .empty source).1.live.policy.stamp.get? "createdBy" =
        some { name := some "writer", nullable := some false } := by
  have distinct (attributes : List (String × Json)) (keys : (Entries.keys attributes).Nodup)
      (each : ∀ m ∈ attributes, m.2.KeysDistinct) :
      (overriding "createdBy" attributes).KeysDistinct :=
    overriding_keysDistinct _ (.object keys each)
  let lower := overriding "createdBy" [("fieldname", .string "author"), ("nullable", .bool false)]
  let document := overriding "createdBy" [("fieldname", .string "writer")]
  have distinctLower : lower.KeysDistinct := by
    apply distinct _ (by decide)
    intro m member
    simp only [List.mem_cons, List.not_mem_nil, or_false] at member
    rcases member with rfl | rfl
    · exact .string _
    · exact .bool _
  have distinctUpper : document.KeysDistinct := by
    apply distinct _ (by decide)
    intro m member
    rw [List.mem_singleton.1 member]
    exact .string _
  let s : PolicyStore := { standard with defaults := lower }
  have stored : s.Settled := ⟨⟨⟨_, rfl⟩, distinctLower, rfl⟩, Json.emptyObject_settled⟩
  have form : s.defaults.ObjectForm := overriding_objectForm _ _
  have given : (PolicySource.document document).KeysDistinct := by
    rintro _ ⟨⟩
    exact distinctUpper
  have form' : document.ObjectForm := overriding_objectForm _ _
  have form'' : s.primary.ObjectForm := by
    intro role o found
    nomatch found
  obtain ⟨reloads, loads⟩ := overrides_layered stored form rfl given rfl form' rfl
  exact ⟨s, .document document, document, _, _, _, stored, form, rfl, given, rfl, form', rfl,
    form'', rfl, reloads, loads .standard form'' rfl, rfl, rfl⟩

/-- A field is named under one spelling by the defaults and under the other one by a document that a
fresh store accepts: the store refuses the document as malformed. -/
theorem reload_fails_between_spellings : ∃ (s : PolicyStore) (live : LivePolicy),
    withDefaults .empty (.document (overriding "createdBy" [("name", .string "author")])) = .ok s ∧
      standard.load .empty (.document (overriding "createdBy" [("fieldname", .string "writer")])) =
        .ok live ∧
      s.reload .empty (.document (overriding "createdBy" [("fieldname", .string "writer")])) =
        (s, .error .invalid) :=
  ⟨_, _, rfl, rfl, rfl⟩

end PolicyStore

end ChangeAudit
