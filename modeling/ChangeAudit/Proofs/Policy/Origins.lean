import ChangeAudit.Proofs.Policy.Paths

/-!
# Where the values of a layering come from

A value that is no object and stands in a layering stands at the same path in one of the two
documents: in the upper one, or in the lower one if the upper one leaves the path open
(`Json.LeavesOpen`), and every such value does get through (`Json.at?_layer_iff`). Where both
documents hold objects the layering holds one too, with the lower keys in their order and then the
other upper ones in theirs (`Json.keys_overMembers`).
-/

namespace ChangeAudit.Json

open Entries (keys)

/-- The document has nothing at the path, and what it has on the way there are objects. -/
def LeavesOpen (document : Json) (path : List String) : Prop :=
  document.at? path = none ∧
    ∀ before, before <+: path → before ≠ path → ∀ v, document.at? before = some v → v.IsObject

theorem at?_cons (j : Json) (key : String) (path : List String) :
    j.at? (key :: path) = (j.get? key).bind (·.at? path) := by
  rw [at?]
  cases j.get? key <;> rfl

theorem not_leavesOpen_nil (j : Json) : ¬ j.LeavesOpen [] := by
  rintro ⟨nothing, -⟩
  nomatch nothing

/-- A path is left open by an object whose member of its first name, if there is one, leaves the rest
of it open. -/
theorem leavesOpen_cons {j : Json} {key : String} {path : List String} :
    j.LeavesOpen (key :: path) ↔
      j.IsObject ∧ ∀ v, j.get? key = some v → v.LeavesOpen path := by
  constructor
  · rintro ⟨nothing, way⟩
    refine ⟨way [] List.nil_prefix (by simp) j rfl, ?_⟩
    intro v there
    constructor
    · rwa [at?_cons, there, Option.bind_some] at nothing
    · intro before isPrefix proper w found
      apply way (key :: before) (List.cons_prefix_cons.2 ⟨rfl, isPrefix⟩)
      · simpa using proper
      · rw [at?_cons, there, Option.bind_some, found]
  · rintro ⟨object, below⟩
    constructor
    · rw [at?_cons, Option.bind_eq_none_iff]
      intro v there
      exact (below v there).1
    · intro before isPrefix proper w found
      cases before with
      | nil =>
        cases found
        exact object
      | cons first before =>
        obtain ⟨rfl, shorter⟩ := List.cons_prefix_cons.1 isPrefix
        rw [at?_cons, Option.bind_eq_some_iff] at found
        obtain ⟨v, there, found⟩ := found
        exact (below v there).2 before shorter (by simpa using proper) w found

/-! ## Paths through a layering -/

variable {lower upper v w : Json} {path : List String}

/-- What both documents have at a path is laid together there. -/
theorem at?_layer_of_both (below : lower.at? path = some v) (above : upper.at? path = some w) :
    (lower.layer upper).at? path = some (v.layer w) := by
  induction path generalizing lower upper with
  | nil =>
    cases below
    cases above
    rfl
  | cons key path ih =>
    rw [at?_cons, Option.bind_eq_some_iff] at below above ⊢
    obtain ⟨l, belowThere, below⟩ := below
    obtain ⟨u, aboveThere, above⟩ := above
    refine ⟨l.layer u, ?_, ih below above⟩
    rw [get?_layer lower (isObject_of_get? aboveThere), belowThere, aboveThere,
      Option.merge_some_some]

/-- Where the upper document leaves a path open, the lower one is seen. -/
theorem at?_layer_of_open (opened : upper.LeavesOpen path) :
    (lower.layer upper).at? path = lower.at? path := by
  induction path generalizing lower upper with
  | nil => exact absurd opened (not_leavesOpen_nil upper)
  | cons key path ih =>
    obtain ⟨object, below⟩ := leavesOpen_cons.1 opened
    rw [at?_cons, at?_cons, get?_layer lower object]
    cases there : upper.get? key with
    | none => rw [Option.merge_none_right]
    | some u =>
      cases lower.get? key with
      | none => exact (below u there).1
      | some l => exact ih (below u there)

/-- What is no object comes from one of the two documents. -/
theorem origin_of_at?_layer (bare : ¬ v.IsObject)
    (found : (lower.layer upper).at? path = some v) :
    upper.at? path = some v ∨ upper.LeavesOpen path ∧ lower.at? path = some v := by
  induction path generalizing lower upper with
  | nil =>
    cases found
    by_cases object : upper.IsObject
    · exact absurd (layer_isObject lower object) bare
    · exact .inl (congrArg some (layer_eq_upper lower object).symm)
  | cons key path ih =>
    by_cases object : upper.IsObject
    · rw [at?_cons, get?_layer lower object] at found
      rw [at?_cons, at?_cons, leavesOpen_cons]
      cases there : upper.get? key with
      | none =>
        rw [there, Option.merge_none_right] at found
        refine .inr ⟨⟨object, ?_⟩, found⟩
        rintro _ ⟨⟩
      | some u =>
        rw [there] at found
        cases below : lower.get? key with
        | none =>
          rw [below, Option.merge_none_left] at found
          exact .inl found
        | some l =>
          rw [below, Option.merge_some_some] at found
          rcases ih found with above | ⟨opened, under⟩
          · exact .inl above
          · refine .inr ⟨⟨object, ?_⟩, under⟩
            rintro _ ⟨⟩
            exact opened
    · rw [layer_eq_upper lower object] at found
      exact .inl found

/-- A value that is no object stands in a layering exactly where it stands in the upper document, or
in the lower one under a path that the upper one leaves open. -/
theorem at?_layer_iff (bare : ¬ v.IsObject) :
    (lower.layer upper).at? path = some v ↔
      upper.at? path = some v ∨ upper.LeavesOpen path ∧ lower.at? path = some v := by
  constructor
  · exact origin_of_at?_layer bare
  · rintro (above | ⟨opened, below⟩)
    · obtain ⟨w, found, same⟩ := keptIn_layer lower upper path v above
      rw [found, same bare]
    · rw [at?_layer_of_open opened, below]

/-! ## Keys in a layering -/

theorem keys_overMembers (below above : List (String × Json)) :
    keys (overMembers below above) =
      keys below ++ (keys above).filter fun key => key ∉ keys below := by
  have others : keys (above.filter fun m => (Entries.get? below m.1).isNone) =
      (keys above).filter fun key => key ∉ keys below := by
    show (above.filter _).map Prod.fst = (above.map Prod.fst).filter _
    rw [List.filter_map]
    congr 1
    apply List.filter_congr
    intro m _
    rw [Bool.eq_iff_iff, Option.isNone_iff_eq_none, Entries.get?_eq_none_iff]
    exact decide_eq_true_iff.symm
  rw [overMembers, Entries.keys_append, keys_layerMembers, others]

theorem KeysDistinct.at? {j : Json} (distinct : j.KeysDistinct) {path : List String} {v : Json}
    (found : j.at? path = some v) : v.KeysDistinct := by
  induction path generalizing j with
  | nil =>
    cases found
    exact distinct
  | cons key path ih =>
    rw [at?_cons, Option.bind_eq_some_iff] at found
    obtain ⟨next, there, found⟩ := found
    exact ih (distinct.get? there) found

/-- A document holds what two documents give it, the upper one first: each value that is no object is
at its path in the upper document, or in the lower one under a path that the upper one leaves open;
and where both hold objects, it holds the keys of the lower one in their order, then the others of
the upper one in theirs, each once. -/
structure Joins (lower upper whole : Json) : Prop where
  fromUpper : ∀ path v, ¬ v.IsObject → upper.at? path = some v → whole.at? path = some v
  fromLower : ∀ path v, ¬ v.IsObject → upper.LeavesOpen path → lower.at? path = some v →
    whole.at? path = some v
  origin : ∀ path v, ¬ v.IsObject → whole.at? path = some v →
    upper.at? path = some v ∨ upper.LeavesOpen path ∧ lower.at? path = some v
  members : ∀ path below above, lower.at? path = some (.object below) →
    upper.at? path = some (.object above) →
      ∃ members, whole.at? path = some (.object members) ∧ (keys members).Nodup ∧
        keys members = keys below ++ (keys above).filter fun key => key ∉ keys below

/-- **Layering is told path by path**: every value that is no object comes through from the upper
document, and from the lower one where the upper one leaves its path open, and nothing else is in the
layering; at every depth the lower keys come first, in their order, and the new upper ones follow in
theirs. -/
theorem layer_joins (distinct : lower.KeysDistinct) (distinct' : upper.KeysDistinct) :
    Joins lower upper (lower.layer upper) where
  fromUpper _ _ bare above := (at?_layer_iff bare).2 (.inl above)
  fromLower _ _ bare opened below := (at?_layer_iff bare).2 (.inr ⟨opened, below⟩)
  origin _ _ bare found := (at?_layer_iff bare).1 found
  members path below above belowThere aboveThere := by
    have whole := at?_layer_of_both belowThere aboveThere
    rw [layer_object] at whole
    refine ⟨overMembers below above, whole, ?_, keys_overMembers below above⟩
    cases (distinct.layer distinct').at? whole with
    | object once => exact once

/-- Defaults with two attributes of an override and a list of masked names. -/
def nestedLower : Json :=
  .object [("verbose", .bool false),
    ("stamp", .object [("createdBy", .object [("nullable", .bool true),
      ("sqlType", .string "varchar")])]),
    ("mask", .array [.string "password"])]

/-- A document that changes one of the attributes, empties the list and adds a role. -/
def nestedUpper : Json :=
  .object [("mask", .array []),
    ("stamp", .object [("removed", .null), ("createdBy", .object [("nullable", .bool false)])])]

theorem layer_joins_nested : nestedLower.KeysDistinct ∧ nestedUpper.KeysDistinct ∧
    Joins nestedLower nestedUpper (nestedLower.layer nestedUpper) ∧
      nestedLower.layer nestedUpper = .object [("verbose", .bool false),
        ("stamp", .object [("createdBy", .object [("nullable", .bool false),
          ("sqlType", .string "varchar")]), ("removed", .null)]),
        ("mask", .array [])] := by
  have distinct : nestedLower.KeysDistinct := Term.json?_keysDistinct nestedLower.toTerm _ rfl
  have distinct' : nestedUpper.KeysDistinct := Term.json?_keysDistinct nestedUpper.toTerm _ rfl
  exact ⟨distinct, distinct', layer_joins distinct distinct', rfl⟩

end ChangeAudit.Json
