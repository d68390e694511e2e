import ChangeAudit.Proofs.Policy.Layer

/-!
# Layered documents path by path

A document is kept in another one if what is no object in it stands there unchanged, at the same
path (`Json.KeptIn`). A document is kept under everything that is laid below it
(`Json.keptIn_layer`), and so is a layering when one more document goes below its lower part
(`Json.layer_keptIn`): the new document only fills gaps. Laid below once more, it fills none
(`Json.KeysDistinct.layer_layer`).
-/

namespace ChangeAudit.Json

/-! ## Documents kept in others -/

/-- What the old document has at the path, the new one has there too, unchanged if it is no
object. -/
def KeptAt (path : List String) (old new : Json) : Prop :=
  ∀ v, old.at? path = some v → ∃ w, new.at? path = some w ∧ (¬ v.IsObject → w = v)

/-- Every value of the old document that is no object is the new one's at the same path. -/
def KeptIn (old new : Json) : Prop := ∀ path, KeptAt path old new

variable {path : List String} {old new : Json}

theorem KeptAt.refl (path : List String) (j : Json) : KeptAt path j j :=
  fun v found => ⟨v, found, fun _ => rfl⟩

theorem KeptAt.nil (same : ¬ old.IsObject → new = old) : KeptAt [] old new := by
  rintro v ⟨⟩
  exact ⟨new, rfl, same⟩

theorem KeptAt.cons {key : String}
    (below : ∀ o, old.get? key = some o → ∃ n, new.get? key = some n ∧ KeptAt path o n) :
    KeptAt (key :: path) old new := by
  intro v found
  cases there : old.get? key with
  | none =>
    rw [at?, there] at found
    nomatch found
  | some o =>
    rw [at?, there] at found
    obtain ⟨n, there', kept⟩ := below o there
    obtain ⟨w, found', same⟩ := kept v found
    exact ⟨w, by rw [at?, there']; exact found', same⟩

namespace KeptIn

/-- What is no object is kept as it is. -/
theorem eq_of_not_isObject (kept : old.KeptIn new) (bare : ¬ old.IsObject) : new = old := by
  obtain ⟨w, found, same⟩ := kept [] old rfl
  cases found
  exact same bare

/-- The members of a document are kept in those of the same names. -/
theorem get? (kept : old.KeptIn new) {key : String} {o : Json} (there : old.get? key = some o) :
    ∃ n, new.get? key = some n ∧ o.KeptIn n := by
  have through (path : List String) (v : Json) (found : o.at? path = some v) :
      ∃ n w, new.get? key = some n ∧ n.at? path = some w ∧ (¬ v.IsObject → w = v) := by
    obtain ⟨w, found', same⟩ := kept (key :: path) v (by rw [at?, there]; exact found)
    rw [at?] at found'
    split at found'
    · next n there' => exact ⟨n, w, there', found', same⟩
    · cases found'
  obtain ⟨n, -, there', -⟩ := through [] o rfl
  refine ⟨n, there', ?_⟩
  intro path v found
  obtain ⟨n', w, there'', found', same⟩ := through path v found
  cases there'.symm.trans there''
  exact ⟨w, found', same⟩

end KeptIn

/-! ## Filling gaps -/

/-- A document is kept over what is below it. -/
theorem keptIn_layer (lower upper : Json) : upper.KeptIn (lower.layer upper) := by
  intro path
  induction path generalizing lower upper with
  | nil => exact .nil (layer_eq_upper lower)
  | cons key path ih =>
    apply KeptAt.cons
    intro u there
    rw [get?_layer lower (isObject_of_get? there), there]
    cases lower.get? key with
    | none => exact ⟨u, rfl, .refl path u⟩
    | some l => exact ⟨l.layer u, rfl, ih l u⟩

/-- A layering is kept when a document goes below its lower part. -/
theorem layer_keptIn (extra lower upper : Json) :
    (lower.layer upper).KeptIn ((extra.layer lower).layer upper) := by
  intro path
  induction path generalizing extra lower upper with
  | nil =>
    apply KeptAt.nil
    intro bare
    by_cases above : upper.IsObject
    · exact absurd (layer_isObject lower above) bare
    · rw [layer_eq_upper _ above, layer_eq_upper _ above]
  | cons key path ih =>
    by_cases below : lower.IsObject
    · apply KeptAt.cons
      intro o there
      by_cases above : upper.IsObject
      · rw [get?_layer _ above] at there ⊢
        rw [get?_layer extra below]
        generalize extra.get? key = e, lower.get? key = l, upper.get? key = u at there ⊢
        cases e with
        | none => exact ⟨o, by rwa [Option.merge_none_left], .refl path o⟩
        | some e =>
          cases l with
          | none =>
            -- the upper document alone has the key
            rw [Option.merge_none_left] at there
            subst there
            exact ⟨e.layer o, rfl, keptIn_layer e o path⟩
          | some l =>
            cases u with
            | none =>
              cases there
              exact ⟨e.layer o, rfl, keptIn_layer e o path⟩
            | some u =>
              cases there
              exact ⟨(e.layer l).layer u, rfl, ih e l u⟩
      · rw [layer_eq_upper lower above, get?_eq_none above] at there
        cases there
    · rw [layer_eq_upper extra below]
      exact .refl _ _

/-! ## Filling the same gaps again -/

theorem layer_self_of {v : Json} (again : ∀ d, v.layer (v.layer d) = v.layer d) :
    v.layer v = v := by
  by_cases object : v.IsObject
  · have same := again (.object [])
    rwa [layer_object_nil object] at same
  · exact layer_eq_upper v object

theorem overMembers_overMembers {below : List (String × Json)}
    (distinct : (Entries.keys below).Nodup)
    (again : ∀ m ∈ below, ∀ d, m.2.layer (m.2.layer d) = m.2.layer d)
    (above : List (String × Json)) :
    overMembers below (overMembers below above) = overMembers below above := by
  have members : layerMembers below (overMembers below above) = layerMembers below above := by
    rw [layerMembers_eq_map, layerMembers_eq_map]
    apply List.map_congr_left
    rintro ⟨key, value⟩ listed
    have self := layer_self_of (again _ listed)
    rw [get?_overMembers, Entries.get?_of_mem distinct listed]
    cases Entries.get? above key with
    | none => exact congrArg (Prod.mk key) self
    | some u => exact congrArg (Prod.mk key) (again _ listed u)
  have others : (overMembers below above).filter (fun m => (Entries.get? below m.1).isNone) =
      above.filter fun m => (Entries.get? below m.1).isNone := by
    have covered : (layerMembers below above).filter
        (fun m => (Entries.get? below m.1).isNone) = [] := by
      rw [List.filter_eq_nil_iff]
      intro m listed
      have known : m.1 ∈ Entries.keys below := by
        rw [← keys_layerMembers below above]
        exact List.mem_map_of_mem listed
      rw [← Option.not_isSome, Entries.isSome_get?_iff.2 known]
      simp
    rw [overMembers, List.filter_append, covered, List.nil_append, List.filter_filter]
    simp only [Bool.and_self]
  rw [overMembers, members, others, ← overMembers]

/-- A document that is laid below a second time changes nothing, not even the order of members. -/
theorem KeysDistinct.layer_layer {extra : Json} (distinct : extra.KeysDistinct) (d : Json) :
    extra.layer (extra.layer d) = extra.layer d := by
  induction distinct generalizing d with
  | @object below distinct each ih =>
    by_cases object : d.IsObject
    · obtain ⟨above, rfl⟩ := object
      rw [layer_object, layer_object, overMembers_overMembers distinct ih]
    · rw [layer_eq_upper _ object, layer_eq_upper _ object]
  | _ =>
    apply layer_eq_upper_of_lower
    rintro ⟨_, ⟨⟩⟩

end ChangeAudit.Json
