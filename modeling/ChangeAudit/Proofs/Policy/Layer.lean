import ChangeAudit.Policy.Source
import ChangeAudit.Proofs.Json.Distinct

/-!
# Layered documents

What is laid over an object by an object is an object, and the empty one changes nothing. Lookup
goes through a layering key by key (`Json.get?_layer`): a value that is no object hides what is below
it and leaves nothing of it. Every document that a store reads is settled: an object with distinct
keys that does not spell the ignored properties `ignore` any more (`PolicySource.read_settled`).
-/

namespace ChangeAudit

namespace Entries

variable {κ α : Type} [DecidableEq κ]

/-- Erasing by a swap leaves the entries of the other keys. -/
theorem swapErase_perm {es : List (κ × α)} (distinct : (keys es).Nodup) (key : κ) :
    (swapErase es key).Perm (es.filter fun e => e.1 ≠ key) := by
  induction es with
  | nil => exact .nil
  | cons e es ih =>
    obtain ⟨k, v⟩ := e
    obtain ⟨fresh, distinct⟩ := List.nodup_cons.1 distinct
    by_cases same : k = key
    · subst same
      have others : es.filter (fun e => e.1 ≠ k) = es := by
        rw [List.filter_eq_self]
        intro e member
        have known : e.1 ∈ keys es := List.mem_map_of_mem member
        exact decide_eq_true fun same => fresh (same ▸ known)
      rw [swapErase, if_pos rfl, List.filter_cons_of_neg (by simp), others]
      rcases List.eq_nil_or_concat es with rfl | ⟨init, last, rfl⟩
      · exact .nil
      · rw [List.concat_eq_append, List.getLast?_concat, List.dropLast_concat]
        exact (List.perm_append_singleton last init).symm
    · rw [swapErase, if_neg same, List.filter_cons_of_pos (by simpa using same)]
      exact (ih distinct).cons (k, v)

theorem nodup_keys_swapErase {es : List (κ × α)} (distinct : (keys es).Nodup) (key : κ) :
    (keys (swapErase es key)).Nodup := by
  rw [keys, ((swapErase_perm distinct key).map Prod.fst).nodup_iff]
  exact List.Nodup.sublist (List.filter_sublist.map Prod.fst) distinct

theorem get?_swapErase {es : List (κ × α)} (distinct : (keys es).Nodup) (key other : κ) :
    get? (swapErase es key) other = if other = key then none else get? es other := by
  rw [get?_of_perm (nodup_keys_swapErase distinct key) (swapErase_perm distinct key),
    get?_filter_ne]

end Entries

namespace Json

/-- The document is an object. -/
def IsObject (j : Json) : Prop := ∃ members, j = .object members

theorem layerMembers_nil (below : List (String × Json)) : layerMembers below [] = below := by
  induction below with
  | nil => rfl
  | cons m below ih =>
    obtain ⟨key, value⟩ := m
    rw [layerMembers, ih]
    rfl

/-- An empty document hides nothing. -/
theorem layer_object_nil {lower : Json} (h : lower.IsObject) :
    lower.layer (.object []) = lower := by
  obtain ⟨below, rfl⟩ := h
  simp only [layer, layerMembers_nil, List.filter_nil, List.append_nil]

/-- An empty document adds nothing. -/
theorem object_nil_layer {upper : Json} (h : upper.IsObject) : (object []).layer upper = upper := by
  obtain ⟨above, rfl⟩ := h
  simp [layer, layerMembers, Entries.get?]

theorem layer_isObject (lower : Json) {upper : Json} (h : upper.IsObject) :
    (lower.layer upper).IsObject := by
  obtain ⟨above, rfl⟩ := h
  cases lower with
  | object below => exact ⟨_, by rw [layer]⟩
  | _ => exact ⟨above, by simp only [layer]⟩

/-- What is no object hides all that is below it. -/
theorem layer_eq_upper (lower : Json) {upper : Json} (h : ¬ upper.IsObject) :
    lower.layer upper = upper := by
  cases upper with
  | object above => exact absurd ⟨above, rfl⟩ h
  | _ => cases lower <;> rfl

/-- What is no object leaves nothing of itself. -/
theorem layer_eq_upper_of_lower {lower : Json} (h : ¬ lower.IsObject) (upper : Json) :
    lower.layer upper = upper := by
  cases lower with
  | object below => exact absurd ⟨below, rfl⟩ h
  | _ => cases upper <;> rfl

/-! ## Lookup in layers -/

theorem layerMembers_eq_map (below above : List (String × Json)) :
    layerMembers below above =
      below.map fun m => (m.1, ((Entries.get? above m.1).map (layer m.2)).getD m.2) := by
  induction below with
  | nil => rfl
  | cons m below ih =>
    rw [layerMembers, ih, List.map_cons]
    cases Entries.get? above m.1 <;> rfl

theorem keys_layerMembers (below above : List (String × Json)) :
    Entries.keys (layerMembers below above) = Entries.keys below := by
  rw [layerMembers_eq_map, Entries.keys, List.map_map]
  rfl

theorem get?_layerMembers (below above : List (String × Json)) (key : String) :
    Entries.get? (layerMembers below above) key =
      (Entries.get? below key).map fun value =>
        ((Entries.get? above key).map (layer value)).getD value := by
  induction below with
  | nil => rfl
  | cons m below ih =>
    obtain ⟨k, value⟩ := m
    rw [layerMembers, Entries.get?, Entries.get?, ih]
    by_cases same : k = key
    · subst same
      simp only [if_true, Option.map_some]
      cases Entries.get? above k <;> rfl
    · simp only [same, if_false]

/-- The members of an object over another one. -/
def overMembers (below above : List (String × Json)) : List (String × Json) :=
  layerMembers below above ++ above.filter fun m => (Entries.get? below m.1).isNone

theorem layer_object (below above : List (String × Json)) :
    (object below).layer (object above) = object (overMembers below above) := by
  rw [layer, overMembers]

theorem get?_overMembers (below above : List (String × Json)) (key : String) :
    Entries.get? (overMembers below above) key =
      (Entries.get? below key).merge layer (Entries.get? above key) := by
  rw [overMembers, Entries.get?_append, get?_layerMembers,
    Entries.get?_filter (fun key => (Entries.get? below key).isNone)]
  cases Entries.get? below key <;> cases Entries.get? above key <;> rfl

theorem nodup_keys_overMembers {below above : List (String × Json)}
    (distinct : (Entries.keys below).Nodup) (distinct' : (Entries.keys above).Nodup) :
    (Entries.keys (overMembers below above)).Nodup := by
  refine Entries.nodup_keys_append ?_ (distinct'.sublist (List.filter_sublist.map Prod.fst)) ?_
  · rwa [keys_layerMembers]
  · intro m member
    rw [keys_layerMembers]
    exact Entries.get?_eq_none_iff.1 (Option.isNone_iff_eq_none.1 (List.mem_filter.1 member).2)

theorem isObject_of_get? {j v : Json} {key : String} (found : j.get? key = some v) :
    j.IsObject := by
  cases j with
  | object members => exact ⟨members, rfl⟩
  | _ => nomatch found

theorem get?_eq_none {j : Json} (h : ¬ j.IsObject) (key : String) : j.get? key = none := by
  rw [Option.eq_none_iff_forall_ne_some]
  intro v found
  exact h (isObject_of_get? found)

/-- The value of a key in a layering is the layering of its values. -/
theorem get?_layer (lower : Json) {upper : Json} (h : upper.IsObject) (key : String) :
    (lower.layer upper).get? key = (lower.get? key).merge layer (upper.get? key) := by
  by_cases object : lower.IsObject
  · obtain ⟨below, rfl⟩ := object
    obtain ⟨above, rfl⟩ := h
    rw [layer_object]
    exact get?_overMembers below above key
  · rw [layer_eq_upper_of_lower object, get?_eq_none object, Option.merge_none_left]

theorem KeysDistinct.get? {j v : Json} (distinct : j.KeysDistinct) {key : String}
    (found : j.get? key = some v) : v.KeysDistinct := by
  cases distinct with
  | object _ each => exact each _ (Entries.mem_of_get? found)
  | _ => nomatch found

/-- A layering of values with distinct keys has distinct keys. -/
theorem KeysDistinct.layer {lower upper : Json} (distinct : lower.KeysDistinct)
    (distinct' : upper.KeysDistinct) : (lower.layer upper).KeysDistinct := by
  induction distinct generalizing upper with
  | @object below distinct each ih =>
    cases distinct' with
    | @object above distinct' each' =>
      rw [layer_object]
      apply KeysDistinct.object (nodup_keys_overMembers distinct distinct')
      intro m member
      rcases List.mem_append.1 member with kept | added
      · rw [layerMembers_eq_map] at kept
        obtain ⟨p, listed, rfl⟩ := List.mem_map.1 kept
        cases found : Entries.get? above p.1 with
        | none => exact each p listed
        | some upper => exact ih p listed (each' _ (Entries.mem_of_get? found))
      · exact each' m (List.mem_filter.1 added).1
    | _ =>
      rw [layer_eq_upper]
      · constructor <;> assumption
      · rintro ⟨_, ⟨⟩⟩
  | _ =>
    rw [layer_eq_upper_of_lower]
    · exact distinct'
    · rintro ⟨_, ⟨⟩⟩

/-- A document that can be layered: an object with distinct keys throughout, its ignored properties
spelled as the policy spells them. -/
structure Settled (document : Json) : Prop where
  isObject : document.IsObject
  keysDistinct : document.KeysDistinct
  spelling : document.get? "ignore" = none

theorem Settled.layer {lower upper : Json} (settled : lower.Settled) (settled' : upper.Settled) :
    (lower.layer upper).Settled where
  isObject := layer_isObject lower settled'.isObject
  keysDistinct := settled.keysDistinct.layer settled'.keysDistinct
  spelling := by
    rw [get?_layer lower settled'.isObject, settled.spelling, settled'.spelling]
    rfl

end Json

namespace PolicySource

theorem normalize_isObject {document effective : Json} (h : normalize document = .ok effective) :
    effective.IsObject := by
  unfold normalize at h
  split at h
  · cases h
    exact ⟨_, rfl⟩
  · cases h
    exact ⟨_, rfl⟩
  · nomatch h

theorem read_isObject {files : FileArea} {source : PolicySource} {document : Json}
    (h : source.read files = .ok document) : document.IsObject := by
  unfold read at h
  split at h
  · exact normalize_isObject h
  · nomatch h

/-! ## Documents that are read are settled -/

theorem unwrap_keysDistinct {document : Json} (distinct : document.KeysDistinct) :
    (unwrap document).KeysDistinct := by
  cases document with
  | object members =>
    rw [unwrap]
    cases found : Entries.get? members sectionKey with
    | none => exact distinct
    | some inner => exact distinct.get? found
  | _ => exact distinct

theorem settleSpelling_settled {members : List (String × Json)}
    (distinct : (Json.object members).KeysDistinct) :
    (Json.object (settleSpelling members)).Settled := by
  have whole := distinct
  cases distinct with | object distinct each => ?_
  unfold settleSpelling
  split
  · next absent => exact ⟨⟨_, rfl⟩, whole, absent⟩
  · next ignore found =>
    have distinctRest := Entries.nodup_keys_swapErase distinct "ignore"
    have gone := Entries.get?_swapErase distinct "ignore" "ignore"
    rw [if_pos rfl] at gone
    have eachRest : ∀ m ∈ Entries.swapErase members "ignore", m.2.KeysDistinct := by
      intro m member
      exact each m (List.mem_filter.1 ((Entries.swapErase_perm distinct "ignore").mem_iff.1 member)).1
    simp only
    generalize Entries.swapErase members "ignore" = rest at distinctRest gone eachRest
    split
    · exact ⟨⟨_, rfl⟩, .object distinctRest eachRest, gone⟩
    · next absent =>
      refine ⟨⟨_, rfl⟩, .object ?_ ?_, ?_⟩
      · refine Entries.nodup_keys_append distinctRest (by simp [Entries.keys]) ?_
        intro m new
        rw [List.mem_singleton.1 new]
        exact Entries.get?_eq_none_iff.1 absent
      · intro m member
        rcases List.mem_append.1 member with old | new
        · exact eachRest m old
        · rw [List.mem_singleton.1 new]
          exact each ("ignore", ignore) (Entries.mem_of_get? found)
      · rw [Json.get?, Entries.get?_append, gone]
        rfl

theorem normalize_settled {document effective : Json} (distinct : document.KeysDistinct)
    (h : normalize document = .ok effective) : effective.Settled := by
  have unwrapped := unwrap_keysDistinct distinct
  unfold normalize at h
  split at h
  · next members found =>
    cases h
    exact settleSpelling_settled (found ▸ unwrapped)
  · cases h
    exact ⟨⟨[], rfl⟩, .object .nil (by simp), rfl⟩
  · nomatch h

/-- No object in a document that is given as a value has a key twice; one that is read never has. -/
def KeysDistinct (source : PolicySource) : Prop := ∀ j, source = .document j → j.KeysDistinct

theorem contents_keysDistinct {files : FileArea} {source : PolicySource} {j : Json}
    (distinct : source.KeysDistinct) (h : source.contents files = .ok j) : j.KeysDistinct := by
  cases source with
  | document j =>
    cases h
    exact distinct j rfl
  | text s =>
    simp only [contents] at h
    split at h
    · next parsed =>
      cases h
      exact Json.parse?_keysDistinct parsed
    · nomatch h
  | file path =>
    simp only [contents] at h
    split at h
    · split at h
      · next parsed =>
        cases h
        exact Json.parse?_keysDistinct parsed
      · nomatch h
    · nomatch h

theorem read_settled {files : FileArea} {source : PolicySource} {document : Json}
    (distinct : source.KeysDistinct) (h : source.read files = .ok document) :
    document.Settled := by
  unfold read at h
  split at h
  · next found => exact normalize_settled (contents_keysDistinct distinct found) h
  · nomatch h

end PolicySource

end ChangeAudit
