import ChangeAudit.Proofs.Policy.Overrides
import Mathlib.Data.List.Induction

/-!
# What layered documents read as

Documents that each read as a policy are laid over one another (`Layers`). The whole reads unless an
attribute is spelled apart in it or a kind is crowded (`Layered.isSome_policy_iff`), and then each
attribute of an override is that of the topmost document that has it (`Layered.get?_stamp`).

The invariant goes from the bottom up (`Layered.push`). It says of every attribute that reads what it
reads as, and nothing of an override as a whole: a kind that is crowded may still be hidden by a
later document.
-/

namespace ChangeAudit

open FieldOverride (Attribute)

/-- A document that makes a policy by itself and overrides stamp fields by objects only. -/
structure Policy.Accepted (document : Json) (overrides : OrderedMap String FieldOverride) :
    Prop where
  settled : document.Settled
  objectForm : document.ObjectForm
  plain : Policy.Plain document
  reads : Policy.overrides? document = some overrides

/-- Documents with the overrides that each has by itself, the lowest document first. -/
abbrev Layers := List (Json × OrderedMap String FieldOverride)

namespace Layers

/-- The documents laid over one another. -/
def document (layers : Layers) : Json :=
  layers.foldl (fun below l => below.layer l.1) .emptyObject

/-- The override of a role, each attribute from the topmost document that gives it. -/
def override? (layers : Layers) (role : String) : Option FieldOverride :=
  layers.foldl (fun below l => below.merge (FieldOverride.overlay (l.1.gives role)) (l.2.get? role))
    none

/-- Some document has an attribute of a role's override under this spelling. -/
def spells (layers : Layers) (role spelling : String) : Bool :=
  layers.any fun l => l.1.spells role spelling

/-- The documents give an attribute under two spellings. -/
def SpelledApart (layers : Layers) (role : String) (a : Attribute) : Prop :=
  ∃ s ∈ a.spellings, ∃ t ∈ a.spellings, s ≠ t ∧ layers.spells role s = true ∧
    layers.spells role t = true

end Layers

/-- What an object shows of an override: the values of its attributes are well formed, apart from
kinds, and an attribute that reads is that of the override. -/
structure Shows (members : List (String × Json)) (o : FieldOverride) : Prop where
  distinct : (Entries.keys members).Nodup
  admits : ∀ (a : Attribute), ∀ s ∈ a.spellings, ∀ value, Entries.get? members s = some value →
    a.Admits value
  reads : ∀ (a : Attribute) x, a.given? members = some x → o.get a = x

/-- A document in which layers came together. -/
structure Layered (layers : Layers) (document : Json) : Prop where
  settled : document.Settled
  plain : Policy.Plain document
  stamp : ∀ v, document.get? "stamp" = some v → v.IsObject
  overrides : ∀ role,
    Option.Rel (fun value o => ∃ members, value = .object members ∧ Shows members o)
      (document.override? role) (layers.override? role)
  spells : ∀ role s, document.spells role s = layers.spells role s

/-- An object that reads as an override shows it. -/
theorem Shows.of_decode? {members : List (String × Json)}
    (distinct : (Entries.keys members).Nodup) {o : FieldOverride}
    (read : FieldOverride.decode? (Json.object members).toTerm = some o) : Shows members o where
  distinct := distinct
  admits := by
    intro a s listed value found
    exact .inl (Attribute.takes_of_decode? distinct read listed found)
  reads := by
    intro a x given
    have read := FieldOverride.decode?_object_eq_some_iff.1 read a
    exact Option.some.inj (read.symm.trans given)

/-- An object that reads, laid over one that shows an override, shows its own attributes over it. -/
theorem Shows.push {below above : List (String × Json)} {lower upper : FieldOverride}
    (shows : Shows below lower) (distinct : (Entries.keys above).Nodup)
    (read : FieldOverride.decode? (Json.object above).toTerm = some upper)
    {given : Attribute → Bool} (givenIn : ∀ a, given a = a.givenIn above) :
    Shows (Json.overMembers below above) (FieldOverride.overlay given lower upper) where
  distinct := Json.nodup_keys_overMembers shows.distinct distinct
  admits := by
    intro a s listed value found
    rw [Json.get?_overMembers, Option.merge_eq_some_iff] at found
    rcases found with ⟨under, -⟩ | ⟨-, top⟩ | ⟨l, u, under, top, rfl⟩
    · exact shows.admits a s listed value under
    · exact .inl (Attribute.takes_of_decode? distinct read listed top)
    · have takes := Attribute.takes_of_decode? distinct read listed top
      exact takes.layer (shows.admits a s listed l under)
  reads := by
    -- the lower object need not read as a whole: only this attribute of it is used
    intro a x whole
    have read := FieldOverride.decode?_object_eq_some_iff.1 read a
    have either := Attribute.given?_overMembers shows.distinct distinct read whole
    rw [FieldOverride.get_overlay, givenIn]
    split at either
    · next given => rw [if_pos given, either]
    · next absent =>
      rw [if_neg absent]
      exact shows.reads a x either

theorem Json.emptyObject_settled : Json.emptyObject.Settled :=
  ⟨⟨[], rfl⟩, .object .nil (by simp), rfl⟩

namespace Layered

theorem nil : Layered [] .emptyObject where
  settled := Json.emptyObject_settled
  plain := by
    intro f listed value found
    nomatch found
  stamp := by
    intro v found
    nomatch found
  overrides := fun role => .none
  spells := fun role s => rfl

variable {layers : Layers} {document upper : Json} {o : OrderedMap String FieldOverride}

/-- The override of a role, with one more document on top. -/
theorem overrides_push (layered : Layered layers document) (accepted : Policy.Accepted upper o)
    (role : String) :
    Option.Rel (fun value o => ∃ members, value = .object members ∧ Shows members o)
      ((document.layer upper).override? role) ((layers ++ [(upper, o)]).override? role) := by
  have merged := Json.override?_layer document accepted.settled.isObject
    (Policy.stamp_isObject accepted.reads) role
  have step : Layers.override? (layers ++ [(upper, o)]) role =
      (layers.override? role).merge (FieldOverride.overlay (upper.gives role)) (o.get? role) := by
    rw [Layers.override?, List.foldl_append]
    rfl
  have own := Policy.get?_of_overrides? accepted.settled.keysDistinct accepted.reads role
  have shown := layered.overrides role
  rw [merged, step, own]
  cases above : upper.override? role with
  | none => simpa using shown
  | some value =>
    obtain ⟨members, rfl⟩ := accepted.objectForm role value above
    cases accepted.settled.keysDistinct.override? above with | object distinct each => ?_
    have all := (Policy.isSome_overrides?_iff accepted.settled.keysDistinct
      (Policy.stamp_isObject accepted.reads)).1 (by rw [accepted.reads]; rfl)
    obtain ⟨mine, read⟩ := Option.isSome_iff_exists.1 (all role _ above)
    rw [Option.bind_some, read]
    generalize document.override? role = lower at shown
    generalize layers.override? role = lo at shown
    cases shown with
    | none => exact .some ⟨members, rfl, .of_decode? distinct read⟩
    | some shown =>
      obtain ⟨below, rfl, shows⟩ := shown
      exact .some ⟨_, Json.layer_object below members,
        shows.push distinct read (Json.gives_of_override above)⟩

/-- One more document on top. -/
theorem push (layered : Layered layers document) (accepted : Policy.Accepted upper o) :
    Layered (layers ++ [(upper, o)]) (document.layer upper) where
  settled := layered.settled.layer accepted.settled
  plain := layered.plain.layer accepted.settled accepted.plain
  stamp := by
    intro v found
    have stamp' := Policy.stamp_isObject accepted.reads
    rw [Json.get?_layer document accepted.settled.isObject, Option.merge_eq_some_iff] at found
    rcases found with ⟨below, -⟩ | ⟨-, above⟩ | ⟨l, u, -, above, rfl⟩
    · exact layered.stamp v below
    · exact stamp' v above
    · exact Json.layer_isObject l (stamp' u above)
  overrides := layered.overrides_push accepted
  spells := by
    intro role s
    rw [Json.spells_layer document accepted.settled.isObject
      (Policy.stamp_isObject accepted.reads) accepted.objectForm, layered.spells]
    simp [Layers.spells]

/-- Documents that are accepted one by one are layered. -/
theorem of_accepted (accepted : ∀ l ∈ layers, Policy.Accepted l.1 l.2) :
    Layered layers layers.document := by
  induction layers using List.reverseRecOn with
  | nil => exact .nil
  | append_singleton layers l ih =>
    have below := ih fun m member => accepted m (List.mem_append_left _ member)
    have both := below.push (accepted l (List.mem_append_right _ List.mem_cons_self))
    rw [Layers.document, List.foldl_append]
    exact both

/-! ## What a layering reads as -/

/-- An override is refused if it spells an attribute twice or writes a kind with several words. -/
theorem isSome_decode?_iff {members : List (String × Json)} {o : FieldOverride}
    (shows : Shows members o) :
    (FieldOverride.decode? (Json.object members).toTerm).isSome = true ↔
      (∀ a : Attribute, ¬ a.SpelledTwice members) ∧
        ∀ value, Entries.get? members "type" = some value → ¬ Attribute.Crowded value := by
  rw [FieldOverride.isSome_decode?_object_iff]
  simp only [Attribute.isSome_given?_iff shows.distinct]
  constructor
  · intro all
    refine ⟨fun a => (all a).1, ?_⟩
    intro value found crowded
    exact Attribute.not_takes_of_crowded crowded
      ((all .kind).2 "type" List.mem_cons_self value found)
  · rintro ⟨once, bare⟩ a
    refine ⟨once a, ?_⟩
    intro s listed value found
    rcases shows.admits a s listed value found with takes | ⟨rfl, crowded⟩
    · exact takes
    · obtain rfl : s = "type" := List.mem_singleton.1 listed
      exact absurd crowded (bare value found)

/-- A layering makes no policy if an attribute is spelled apart in it or a kind is crowded, and in
no other case. -/
theorem isSome_policy_iff (layered : Layered layers document) :
    (Policy.decode? document.toTerm).isSome = true ↔
      ∀ role, (∀ a, ¬ layers.SpelledApart role a) ∧ ¬ document.KindCrowded role := by
  have reads : (Policy.decode? document.toTerm).isSome = true ↔
      (Policy.overrides? document).isSome = true := by
    constructor
    · intro read
      obtain ⟨p, read⟩ := Option.isSome_iff_exists.1 read
      have both := (Policy.decode?_settled layered.settled p.stamp).1 (by rw [read]; rfl)
      rw [both.2]
      rfl
    · intro read
      obtain ⟨o, read⟩ := Option.isSome_iff_exists.1 read
      have whole := (Policy.decode?_settled layered.settled o).2 ⟨layered.plain, read⟩
      obtain ⟨p, decoded, -⟩ := Option.map_eq_some_iff.1 whole
      rw [decoded]
      rfl
  rw [reads, Policy.isSome_overrides?_iff layered.settled.keysDistinct layered.stamp]
  apply forall_congr'
  intro role
  have shown := layered.overrides role
  have spells := layered.spells role
  cases found : document.override? role with
  | none =>
    have silent (s : String) : layers.spells role s = false := by
      rw [← spells, Json.spells_of_no_override found]
    simp [Layers.SpelledApart, silent, Json.KindCrowded, Json.at?_override, found]
  | some value =>
    rw [found] at shown
    generalize layers.override? role = o at shown
    cases shown with
    | some shown =>
      obtain ⟨members, rfl, shows⟩ := shown
      have apart (a : Attribute) : layers.SpelledApart role a ↔ a.SpelledTwice members := by
        simp only [Layers.SpelledApart, ← spells, Json.spells_of_override found,
          Attribute.SpelledTwice]
      have crowded : document.KindCrowded role ↔
          ∃ value, Entries.get? members "type" = some value ∧ Attribute.Crowded value := by
        rw [Json.KindCrowded, Json.at?_override, found]
        rfl
      simp only [Option.some.injEq, forall_eq', isSome_decode?_iff shows, apart, crowded,
        not_exists, not_and]

/-- The policy of a layering has the topmost attributes. -/
theorem get?_stamp (layered : Layered layers document) {p : Policy}
    (read : Policy.decode? document.toTerm = some p) (role : String) :
    p.stamp.get? role = layers.override? role := by
  have shown := layered.overrides role
  cases found : document.override? role with
  | none =>
    rw [found] at shown
    rw [Policy.get?_stamp layered.settled read, found]
    generalize layers.override? role = o at shown
    cases shown
    rfl
  | some value =>
    obtain ⟨o, stamped, decoded⟩ := Policy.exists_override layered.settled read found
    rw [found] at shown
    generalize layers.override? role = lo at shown
    cases shown with
    | some shown =>
      obtain ⟨members, rfl, shows⟩ := shown
      rw [stamped, Option.some.injEq]
      apply FieldOverride.ext_get
      intro a
      exact (shows.reads a _ (FieldOverride.decode?_object_eq_some_iff.1 decoded a)).symm

end Layered

end ChangeAudit
