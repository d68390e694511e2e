import ChangeAudit.Proofs.Policy.Secondary

/-!
# Spellings of a document are interchangeable

A document may stand in a section of its own, may spell the ignored properties `ignore`, and may come
as text, from a file or as a value. What a store reads of any of these has the same members, maybe in
another order of the top keys (`PolicySource.normalize_respells`), and no policy depends on that
order. So stores whose documents have the same members stay so under every operation and answer alike
(`PolicyStore.Alike.step`), and a store does not tell the spellings apart, then or later
(`PolicyStore.Reached.interchangeable`).
-/

namespace ChangeAudit

namespace Json

/-- The documents have the same members, in any order. -/
def SameMembers (a b : Json) : Prop := ∀ key, a.get? key = b.get? key

theorem SameMembers.layer {a b c d : Json} (lower : a.SameMembers b) (object : c.IsObject)
    (object' : d.IsObject) (upper : c.SameMembers d) : (a.layer c).SameMembers (b.layer d) := by
  intro key
  rw [get?_layer a object, get?_layer b object', lower, upper]

/-- The ignored properties of a document, however it spells them; a document with both spellings
means the longer one. -/
def ignored? (document : Json) : Option Json :=
  (document.get? "ignoredProperties").or (document.get? "ignore")

/-- The documents have the same members but for the spelling of the ignored properties. -/
structure Respells (a b : Json) : Prop where
  ignored : a.ignored? = b.ignored?
  others : ∀ key, key ≠ "ignoredProperties" → key ≠ "ignore" → a.get? key = b.get? key

/-- The reader of policies finds at most one spelling of the ignored properties. -/
def SpelledOnce (document : Json) : Prop :=
  ∃ members, document = .object members ∧
    (Term.given? (toMembers members) ["ignoredProperties", "ignore"]).isSome = true

theorem Settled.spelledOnce {document : Json} (settled : document.Settled) :
    document.SpelledOnce := by
  obtain ⟨⟨members, rfl⟩, distinct, spelling⟩ := settled
  cases distinct with | object distinct each => ?_
  exact ⟨members, rfl, by rw [Term.given?_pair distinct (by decide) spelling, Option.isSome_some]⟩

end Json

namespace PolicySource

theorem get?_settleSpelling {members : List (String × Json)}
    (distinct : (Entries.keys members).Nodup) (key : String) :
    Entries.get? (settleSpelling members) key =
      if key = "ignore" then none
      else if key = "ignoredProperties" then (Json.object members).ignored?
      else Entries.get? members key := by
  have erased := Entries.get?_swapErase distinct "ignore"
  have longer := erased "ignoredProperties"
  rw [if_neg (by decide)] at longer
  unfold settleSpelling
  rw [Json.ignored?, Json.get?, Json.get?]
  split
  · next absent =>
    rw [absent, Option.or_none]
    split
    · next same => rw [same, absent]
    · split
      · next same => rw [same]
      · rfl
  · next ignore found =>
    rw [found]
    simp only [longer]
    split
    · next value there =>
      rw [erased, there, Option.some_or]
      split
      · rfl
      · split
        · next same => rw [same, there]
        · rfl
    · next absent =>
      rw [Entries.get?_append, erased, absent, Option.none_or, Entries.get?, Entries.get?]
      by_cases short : key = "ignore"
      · simp [short]
      · by_cases long : key = "ignoredProperties"
        · simp [long, absent]
        · simp [short, long, Ne.symm long]

/-- A document without a section is read as its members with one spelling. -/
theorem normalize_object {members : List (String × Json)}
    (bare : Entries.get? members sectionKey = none) :
    normalize (.object members) = .ok (.object (settleSpelling members)) := by
  simp only [normalize, unwrap, bare, Option.getD_none]

/-- A document in a section is read as if it stood alone. -/
theorem normalize_section {members : List (String × Json)} {document : Json}
    (object : document.IsObject) (bare : document.get? sectionKey = none)
    (inside : Entries.get? members sectionKey = some document) :
    normalize (.object members) = normalize document := by
  obtain ⟨inner, rfl⟩ := object
  rw [normalize_object bare]
  simp only [normalize, unwrap, inside, Option.getD_some]

/-- Documents that differ in the spelling of the ignored properties are read as the same members. -/
theorem normalize_respells {a b : Json} (object : a.IsObject) (object' : b.IsObject)
    (distinct : a.KeysDistinct) (distinct' : b.KeysDistinct) (bare : a.get? sectionKey = none)
    (same : a.Respells b) :
    ∃ d e, normalize a = .ok d ∧ normalize b = .ok e ∧ d.SameMembers e := by
  obtain ⟨members, rfl⟩ := object
  obtain ⟨members', rfl⟩ := object'
  have bare' : Entries.get? members' sectionKey = none :=
    (same.others sectionKey (by decide) (by decide)).symm.trans bare
  refine ⟨_, _, normalize_object bare, normalize_object bare', ?_⟩
  intro key
  cases distinct with | object distinct each => ?_
  cases distinct' with | object distinct' each' => ?_
  rw [Json.get?, Json.get?, get?_settleSpelling distinct, get?_settleSpelling distinct']
  split
  · rfl
  · next notIgnore =>
    split
    · exact same.ignored
    · next notLonger => exact same.others key notLonger notIgnore

/-- What is read of two sources: documents with the same members, or the same fault. -/
inductive SameRead : Except PolicyFault Json → Except PolicyFault Json → Prop where
  | ok {d e : Json} (settled : d.Settled) (settled' : e.Settled) (same : d.SameMembers e) :
      SameRead (.ok d) (.ok e)
  | error (fault : PolicyFault) : SameRead (.error fault) (.error fault)

theorem SameRead.of_eq {files files' : FileArea} {source source' : PolicySource}
    (distinct : source.KeysDistinct) (same : source.read files = source'.read files') :
    SameRead (source.read files) (source'.read files') := by
  rw [← same]
  cases read : source.read files with
  | ok d =>
    have settled := read_settled distinct read
    exact .ok settled settled fun _ => rfl
  | error e => exact .error e

theorem SameRead.refl {files : FileArea} {source : PolicySource} (distinct : source.KeysDistinct) :
    SameRead (source.read files) (source.read files) :=
  .of_eq distinct rfl

theorem keysDistinct_document {document : Json} (distinct : document.KeysDistinct) :
    (PolicySource.document document).KeysDistinct := by
  rintro _ ⟨⟩
  exact distinct

theorem SameRead.of_respells {a b : Json} (object : a.IsObject) (object' : b.IsObject)
    (distinct : a.KeysDistinct) (distinct' : b.KeysDistinct) (bare : a.get? sectionKey = none)
    (same : a.Respells b) (files : FileArea) :
    SameRead (read files (.document a)) (read files (.document b)) := by
  obtain ⟨d, e, found, found', members⟩ :=
    normalize_respells object object' distinct distinct' bare same
  change SameRead (normalize a) (normalize b)
  rw [found, found']
  exact .ok (normalize_settled distinct found) (normalize_settled distinct' found') members

theorem read_text_of_parse? {text : String} {document : Json}
    (parsed : Json.parse? text = some document) (files : FileArea) :
    read files (.text text) = read files (.document document) := by
  simp only [read, contents, parsed]

theorem read_file_of_text {files : FileArea} {path text : String} {document : Json}
    (there : files.read path = .text text) (parsed : Json.parse? text = some document) :
    read files (.file path) = read files (.document document) := by
  simp only [read, contents, there, parsed]

end PolicySource

namespace PolicyStore

open PolicySource (SameRead sectionKey)

/-! ## Stores with the same members -/

/-- The stores have documents with the same members, and the same sources of the actor and live
policy. -/
structure Alike (s t : PolicyStore) : Prop where
  settled : s.Settled
  settled' : t.Settled
  defaults : s.defaults.SameMembers t.defaults
  primary : s.primary.SameMembers t.primary
  resolver : s.resolver = t.resolver
  session : s.session = t.session
  live : s.live = t.live

/-- Two outcomes of an operation are the same: the answers are, and the stores are alike. -/
structure AlikeOutcomes (x y : PolicyStore × Except PolicyFault Unit) : Prop where
  answer : x.2 = y.2
  store : x.1.Alike y.1

theorem Alike.refl {s : PolicyStore} (settled : s.Settled) : s.Alike s :=
  ⟨settled, settled, fun _ => rfl, fun _ => rfl, rfl, rfl, rfl⟩

theorem policyOf_congr {d e : Json} (settled : d.Settled) (settled' : e.Settled)
    (same : d.SameMembers e) : policyOf d = policyOf e := by
  rw [policyOf, policyOf, Policy.decode?_congr settled settled' fun key _ => same key]

variable {s t : PolicyStore}

theorem Alike.materialize (alike : s.Alike t) {d e : Json} (settled : d.Settled)
    (settled' : e.Settled) (same : d.SameMembers e) : s.materialize d = t.materialize e := by
  have whole := alike.defaults.layer settled.isObject settled'.isObject same
  have policy := policyOf_congr (alike.settled.1.layer settled) (alike.settled'.1.layer settled')
    whole
  rw [PolicyStore.materialize, PolicyStore.materialize, policy, alike.resolver, alike.session]

theorem Alike.load (alike : s.Alike t) {files files' : FileArea} {source source' : PolicySource}
    (same : SameRead (source.read files) (source'.read files')) :
    s.load files source = t.load files' source' := by
  unfold PolicyStore.load
  generalize source.read files = found at same ⊢
  generalize source'.read files' = found' at same ⊢
  cases same with
  | ok settled settled' same => exact alike.materialize settled settled' same
  | error e => rfl

theorem Alike.reload (alike : s.Alike t) {files files' : FileArea} {source source' : PolicySource}
    (same : SameRead (source.read files) (source'.read files')) :
    AlikeOutcomes (s.reload files source) (t.reload files' source') := by
  unfold PolicyStore.reload
  generalize source.read files = found at same ⊢
  generalize source'.read files' = found' at same ⊢
  cases same with
  | error e => exact ⟨rfl, alike⟩
  | @ok d e settled settled' same =>
    have made := alike.materialize settled settled' same
    simp only [made]
    cases t.materialize e with
    | error e => exact ⟨rfl, alike⟩
    | ok live => exact ⟨rfl, { alike with
        settled := ⟨alike.settled.1, settled⟩
        settled' := ⟨alike.settled'.1, settled'⟩
        primary := same
        live := rfl }⟩

theorem Alike.loadSecondary (alike : s.Alike t) {files files' : FileArea}
    {source source' : PolicySource}
    (same : SameRead (source.read files) (source'.read files')) :
    AlikeOutcomes (s.loadSecondary files source) (t.loadSecondary files' source') := by
  unfold PolicyStore.loadSecondary
  generalize source.read files = found at same ⊢
  generalize source'.read files' = found' at same ⊢
  cases same with
  | error e => exact ⟨rfl, alike⟩
  | @ok d e settled settled' same =>
    let below : PolicyStore := { s with defaults := d.layer s.defaults }
    let below' : PolicyStore := { t with defaults := e.layer t.defaults }
    have next : below.Alike below' := { alike with
      settled := ⟨settled.layer alike.settled.1, alike.settled.2⟩
      settled' := ⟨settled'.layer alike.settled'.1, alike.settled'.2⟩
      defaults := same.layer alike.settled.1.isObject alike.settled'.1.isObject alike.defaults }
    have made := next.materialize alike.settled.2 alike.settled'.2 alike.primary
    simp only [below, below'] at made
    simp only [made]
    cases PolicyStore.materialize { t with defaults := e.layer t.defaults } t.primary with
    | error e => exact ⟨rfl, alike⟩
    | ok live => exact ⟨rfl, { next with live := rfl }⟩

theorem Alike.refresh (alike : s.Alike t) : AlikeOutcomes s.refresh t.refresh := by
  have made := alike.materialize alike.settled.2 alike.settled'.2 alike.primary
  unfold PolicyStore.refresh
  rw [made]
  cases t.materialize t.primary with
  | error e => exact ⟨rfl, alike⟩
  | ok live => exact ⟨rfl, { alike with live := rfl }⟩

/-- Every operation treats alike stores alike. -/
theorem Alike.step (alike : s.Alike t) (files : FileArea) {op : Operation}
    (distinct : op.KeysDistinct) : AlikeOutcomes (s.step files op) (t.step files op) := by
  cases op with
  | load source =>
    have loaded : s.load files source = t.load files source := alike.load (.refl distinct)
    exact ⟨congrArg (Except.map fun _ => ()) loaded, alike⟩
  | reload source => exact alike.reload (.refl distinct)
  | loadSecondary source => exact alike.loadSecondary (.refl distinct)
  | reset =>
    have made := alike.materialize Json.emptyObject_settled Json.emptyObject_settled fun _ => rfl
    simp only [PolicyStore.step, reset, made]
    cases t.materialize .emptyObject with
    | error e => exact ⟨rfl, alike⟩
    | ok live => exact ⟨rfl, { alike with
        settled := ⟨alike.settled.1, Json.emptyObject_settled⟩
        settled' := ⟨alike.settled'.1, Json.emptyObject_settled⟩
        primary := fun _ => rfl
        live := rfl }⟩
  | setResolver r => exact Alike.refresh { alike with resolver := rfl }
  | setSession source => exact Alike.refresh { alike with session := rfl }

theorem Alike.run (alike : s.Alike t) {ops : List (FileArea × Operation)}
    (distinct : ∀ op ∈ ops, op.2.KeysDistinct) : (s.run ops).Alike (t.run ops) := by
  induction ops generalizing s t with
  | nil => exact alike
  | cons op ops ih =>
    rw [List.forall_mem_cons] at distinct
    exact ih (alike.step op.1 distinct.1).store distinct.2

/-! ## What no operation tells apart -/

/-- No run of operations tells the stores apart: not by the live policy after it, not by the answer
to the next operation, and not by a policy that is only loaded. -/
structure Indistinguishable (s t : PolicyStore) : Prop where
  live : ∀ ops : List (FileArea × Operation), (∀ op ∈ ops, op.2.KeysDistinct) →
    (s.run ops).live = (t.run ops).live
  answer : ∀ ops : List (FileArea × Operation), (∀ op ∈ ops, op.2.KeysDistinct) →
    ∀ files op, op.KeysDistinct → ((s.run ops).step files op).2 = ((t.run ops).step files op).2
  loaded : ∀ ops : List (FileArea × Operation), (∀ op ∈ ops, op.2.KeysDistinct) →
    ∀ files source, source.KeysDistinct →
      (s.run ops).load files source = (t.run ops).load files source

theorem Alike.indistinguishable (alike : s.Alike t) : s.Indistinguishable t where
  live _ distinct := (alike.run distinct).live
  answer _ distinct files _ distinct' := ((alike.run distinct).step files distinct').answer
  loaded _ distinct _ _ distinct' := (alike.run distinct).load (.refl distinct')

/-- A store answers alike to two sources, and what it becomes cannot be told apart. -/
structure Confuses (s : PolicyStore) (files : FileArea) (source source' : PolicySource) :
    Prop where
  load : s.load files source = s.load files source'
  reload : (s.reload files source).2 = (s.reload files source').2
  reloaded : (s.reload files source).1.Indistinguishable (s.reload files source').1
  loadSecondary : (s.loadSecondary files source).2 = (s.loadSecondary files source').2
  secondaryLoaded :
    (s.loadSecondary files source).1.Indistinguishable (s.loadSecondary files source').1

theorem Settled.confuses (settled : s.Settled) {files : FileArea} {source source' : PolicySource}
    (same : SameRead (source.read files) (source'.read files)) :
    s.Confuses files source source' := by
  have alike := Alike.refl settled
  exact ⟨alike.load same, (alike.reload same).answer, (alike.reload same).store.indistinguishable,
    (alike.loadSecondary same).answer, (alike.loadSecondary same).store.indistinguishable⟩

/-- A store has no use for a source. -/
def Refuses (s : PolicyStore) (files : FileArea) (source : PolicySource) : Prop :=
  ∃ e, s.load files source = .error e ∧ s.reload files source = (s, .error e) ∧
    s.loadSecondary files source = (s, .error e)

theorem refuses_of_read {files : FileArea} {source : PolicySource} {e : PolicyFault}
    (failed : source.read files = .error e) : s.Refuses files source := by
  refine ⟨e, ?_, ?_, ?_⟩
  · rw [PolicyStore.load, failed]
  · rw [PolicyStore.reload, failed]
  · rw [PolicyStore.loadSecondary, failed]

/-- Which documents a store takes for one another. -/
structure Interchangeable (s : PolicyStore) : Prop where
  /-- A document, and an object with that document in the section. -/
  wrapped : ∀ files document members, document.KeysDistinct → document.IsObject →
    document.get? sectionKey = none → (Json.object members).get? sectionKey = some document →
      s.Confuses files (.document document) (.document (.object members))
  /-- A document that has no `ignoredProperties`, and one that has under that key what the first has
  under `ignore`. -/
  renamed : ∀ files a b, a.IsObject → b.IsObject → a.KeysDistinct → b.KeysDistinct →
    a.get? sectionKey = none → a.get? "ignoredProperties" = none →
      b.get? "ignoredProperties" = a.get? "ignore" → b.get? "ignore" = none →
        (∀ key, key ≠ "ignoredProperties" → key ≠ "ignore" → a.get? key = b.get? key) →
          s.Confuses files (.document a) (.document b)
  /-- Documents that have `ignoredProperties`, whatever they have under `ignore`. -/
  overruled : ∀ files a b, a.IsObject → b.IsObject → a.KeysDistinct → b.KeysDistinct →
    a.get? sectionKey = none → (a.get? "ignoredProperties").isSome = true →
      (∀ key, key ≠ "ignore" → a.get? key = b.get? key) →
        s.Confuses files (.document a) (.document b)
  /-- A text, a file with it, and what it says. -/
  written : ∀ files path text document, files.read path = .text text →
    Json.parse? text = some document →
      s.Confuses files (.text text) (.document document) ∧
        s.Confuses files (.file path) (.document document)
  /-- A text that says nothing, and a file with it. -/
  unreadable : ∀ files path text, files.read path = .text text → Json.parse? text = none →
    s.Refuses files (.text text) ∧ s.Refuses files (.file path)
  /-- The store holds no document that spells the ignored properties `ignore`. -/
  settled : s.defaults.get? "ignore" = none ∧ s.primary.get? "ignore" = none
  /-- No document that it would make a policy of has them in two spellings. -/
  layered : ∀ files (source : PolicySource) document, source.KeysDistinct →
    source.read files = .ok document →
      (s.defaults.layer document).SpelledOnce ∧
        ((document.layer s.defaults).layer s.primary).SpelledOnce

/-- **Spellings of a document are interchangeable**: a store that operations reach answers alike to a
document, to the document in its section, and to the document with the other spelling of the ignored
properties, and no later operation tells which one it was; so it does with a text, a file with that
text and what the text says. Beside `ignoredProperties` an `ignore` has no effect, and no document
that is held or layered has both. -/
theorem Reached.interchangeable (reached : s.Reached) : s.Interchangeable where
  wrapped := by
    intro files document members distinct object bare inside
    apply reached.settled.confuses
    apply SameRead.of_eq (PolicySource.keysDistinct_document distinct)
    exact (PolicySource.normalize_section object bare inside).symm
  renamed := by
    intro files a b object object' distinct distinct' bare absent renamed gone others
    apply reached.settled.confuses
    apply SameRead.of_respells object object' distinct distinct' bare
    refine ⟨?_, others⟩
    rw [Json.ignored?, Json.ignored?, absent, renamed, gone, Option.none_or, Option.or_none]
  overruled := by
    intro files a b object object' distinct distinct' bare present others
    apply reached.settled.confuses
    apply SameRead.of_respells object object' distinct distinct' bare
    refine ⟨?_, fun key _ other => others key other⟩
    have longer := others "ignoredProperties" (by decide)
    obtain ⟨value, there⟩ := Option.isSome_iff_exists.1 present
    rw [Json.ignored?, Json.ignored?, ← longer, there, Option.some_or, Option.some_or]
  written := by
    intro files path text document there parsed
    have ofText := PolicySource.read_text_of_parse? parsed files
    have ofFile := PolicySource.read_file_of_text there parsed
    constructor
    · apply reached.settled.confuses
      exact SameRead.of_eq (by rintro _ ⟨⟩) ofText
    · apply reached.settled.confuses
      exact SameRead.of_eq (by rintro _ ⟨⟩) ofFile
  unreadable := by
    intro files path text there unparsed
    have failed : PolicySource.read files (.text text) = .error .unparsable := by
      simp only [PolicySource.read, PolicySource.contents, unparsed]
    have failed' : PolicySource.read files (.file path) = .error (.unparsableFile path) := by
      simp only [PolicySource.read, PolicySource.contents, there, unparsed]
    exact ⟨refuses_of_read failed, refuses_of_read failed'⟩
  settled := ⟨reached.settled.1.spelling, reached.settled.2.spelling⟩
  layered := by
    intro files source document distinct read
    have extra := PolicySource.read_settled distinct read
    obtain ⟨below, above⟩ := reached.settled
    exact ⟨(below.layer extra).spelledOnce, ((extra.layer below).layer above).spelledOnce⟩

/-- Properties that are ignored in the short spelling come into a store from a section beside another
key, and are replaced by others in the long one. -/
theorem interchangeable_section : ∃ (s : PolicyStore) (document : Json),
    s.Reached ∧ s.Interchangeable ∧
      s.live.policy.ignored.names = ["status"] ∧ s.live.policy.verbose = true ∧
      (s.reload .empty (.document document)).1.live.policy.ignored.names = ["amount"] := by
  let inner : Json := .object [("ignore", .strings ["status"]), ("verbose", .bool true)]
  let whole : Json := .object [("version", .nat 2), (sectionKey, inner)]
  have distinct : whole.KeysDistinct := Term.json?_keysDistinct whole.toTerm whole rfl
  have reached : (standard.step .empty (.reload (.document whole))).1.Reached :=
    .step .standard .empty (PolicySource.keysDistinct_document distinct)
  exact ⟨_, .object [("ignore", .strings ["id"]), ("ignoredProperties", .strings ["amount"])],
    reached, reached.interchangeable, rfl, rfl, rfl⟩

end PolicyStore

end ChangeAudit
