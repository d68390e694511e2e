import ChangeAudit.FileArea
import ChangeAudit.Proofs.OrderedMap
import ChangeAudit.Proofs.Text.Lines

/-!
# What creating directories and appending change

Creating directories leaves every node as it was and adds directories only (`createAbove_grown`).
Done once, doing it again changes nothing and gives the same answer (`createAbove_createAbove`), and
above a file, or a place that is free for one, all of them are there already
(`createAbove_of_target`). After a file was written its path leads to the new bytes (`follow_put`).
How the coming appends go has no part in where a path leads or in what directories are created
(`follow_passAppend`, `createAbove_passAppend`).
-/

namespace ChangeAudit

/-! ## Written paths -/

theorem slash_not_mem_pathNames {written name : String} (h : name ∈ pathNames written) :
    '/' ∉ name.toList := by
  obtain ⟨piece, member, rfl⟩ := List.mem_map.1 h
  rw [String.toList_ofList]
  exact Text.not_mem_of_mem_pieces member

theorem pathNames_ne_nil (written : String) : pathNames written ≠ [] := by
  intro none
  exact Text.pieces_ne_nil '/' written.toList (List.map_eq_nil_iff.1 none)

/-- The names with slashes between them are the written path. -/
theorem intercalate_pathNames (written : String) :
    "/".intercalate (pathNames written) = written := by
  have whole : (pathNames written).map String.toList = Text.pieces '/' written.toList := by
    simp [pathNames, Function.comp_def]
  rw [← String.toList_inj, String.toList_intercalate, whole]
  exact Text.intercalate_pieces '/' written.toList

theorem pathNames_intercalate {names : List String} (some : names ≠ [])
    (whole : ∀ n ∈ names, '/' ∉ n.toList) : pathNames ("/".intercalate names) = names := by
  have cut : Text.pieces '/' (['/'].intercalate (names.map String.toList)) = _ :=
    Text.pieces_intercalate (by simpa using some) (by simpa using whole)
  rw [pathNames, String.toList_intercalate]
  refine (congrArg (List.map String.ofList) cut).trans ?_
  simp [Function.comp_def]

namespace FileArea

variable {a b : FileArea}

/-! ## Nodes -/

theorem node?_put (a : FileArea) {path : Path} (named : path ≠ []) (node : FileNode)
    (other : Path) :
    (a.put path node).node? other = if path = other then some node else a.node? other := by
  unfold node? put
  by_cases top : other = []
  · subst top
    simp [named]
  · simp only [top, if_false, OrderedMap.get?_insert]

/-- The second tree has the nodes of the first, and beyond them directories only. -/
structure Grown (a b : FileArea) : Prop where
  kept : ∀ {path node}, a.node? path = some node → b.node? path = some node
  added : ∀ {path node}, b.node? path = some node →
    a.node? path = some node ∨ node = .directory

theorem Grown.refl (a : FileArea) : Grown a a := ⟨id, .inl⟩

theorem Grown.trans {c : FileArea} (first : Grown a b) (second : Grown b c) : Grown a c where
  kept present := second.kept (first.kept present)
  added present := by
    rcases second.added present with earlier | new
    · exact first.added earlier
    · exact .inr new

/-- The bytes of the file at a path; none if no file is there. -/
def bytes? (a : FileArea) (path : Path) : Option (List UInt8) :=
  match a.node? path with
  | some (.file bytes) => some bytes
  | some .directory | none => none

theorem bytes?_eq_some_iff {path : Path} {bytes : List UInt8} :
    a.bytes? path = some bytes ↔ a.node? path = some (.file bytes) := by
  unfold bytes?
  split
  · next there => simp [there]
  · next there => simp [there]
  · next there => simp [there]

theorem bytes?_put (a : FileArea) {path : Path} (named : path ≠ []) (bytes : List UInt8)
    (other : Path) :
    (a.put path (.file bytes)).bytes? other =
      if path = other then some bytes else a.bytes? other := by
  rw [bytes?, node?_put a named]
  by_cases same : path = other
  · rw [if_pos same, if_pos same]
  · rw [if_neg same, if_neg same]
    rfl

/-- Growing leaves every file as it was and adds none. -/
theorem Grown.bytes?_eq (grown : Grown a b) (path : Path) : b.bytes? path = a.bytes? path := by
  refine Option.ext fun bytes => ?_
  rw [bytes?_eq_some_iff, bytes?_eq_some_iff]
  constructor
  · intro present
    rcases grown.added present with earlier | new
    · exact earlier
    · nomatch new
  · exact grown.kept

theorem grown_put {path : Path} (free : a.node? path = none) :
    Grown a (a.put path .directory) := by
  have named : path ≠ [] := by
    rintro rfl
    nomatch free
  constructor
  · intro other node present
    rw [node?_put a named, if_neg]
    · exact present
    · rintro rfl
      nomatch free.symm.trans present
  · intro other node present
    rw [node?_put a named] at present
    split at present
    · exact .inr (Option.some.inj present).symm
    · exact .inl present

/-! ## Creating directories -/

theorem createFrom_grown (a : FileArea) (here : Path) (names : List String) :
    Grown a (a.createFrom here names).1 := by
  fun_induction createFrom a here names with
  | case1 a here => exact .refl a
  | case2 a here name rest stay ih => exact ih
  | case3 a here rest stay ih => exact ih
  | case4 a here name rest => exact .refl a
  | case5 a here name rest stay up short there ih => exact ih
  | case6 a here name rest => exact .refl a
  | case7 a here name rest stay up short free ih => exact (grown_put free).trans ih

/-- Creating directories once is as good as twice. -/
theorem createFrom_createFrom (a : FileArea) (here : Path) (names : List String) :
    (a.createFrom here names).1.createFrom here names = a.createFrom here names := by
  fun_induction createFrom a here names with
  | case1 a here => rfl
  | case2 a here name rest stay ih => rw [createFrom, if_pos stay, ih]
  | case3 a here rest stay ih => rw [createFrom, if_neg stay, if_pos rfl, ih]
  | case4 a here name rest stay up long => rw [createFrom, if_neg stay, if_neg up, if_pos long]
  | case5 a here name rest stay up short there ih =>
    have kept := (createFrom_grown a (here ++ [name]) rest).kept there
    rw [createFrom, if_neg stay, if_neg up, if_neg short]
    simp only [kept, ih]
  | case6 a here name rest stay up short bytes there =>
    rw [createFrom, if_neg stay, if_neg up, if_neg short]
    simp only [there]
  | case7 a here name rest stay up short free ih =>
    have created :
        (a.put (here ++ [name]) .directory).node? (here ++ [name]) = some .directory := by
      rw [node?_put a (by simp), if_pos rfl]
    have kept := (createFrom_grown _ (here ++ [name]) rest).kept created
    rw [createFrom, if_neg stay, if_neg up, if_neg short]
    simp only [kept, ih]

/-! ## Where names lead -/

/-- A target is a file, or nothing is there. -/
theorem node?_of_target {here : Path} {names : List String} {path : Path}
    {bytes : List UInt8} (h : (a.followFrom here names).target? = some (path, bytes)) :
    path ≠ [] ∧ (a.node? path = some (.file bytes) ∨ (a.node? path = none ∧ bytes = [])) := by
  fun_induction followFrom a here names with
  | case1 here => nomatch h
  | case2 here name rest stay ih => exact ih h
  | case3 here rest stay ih => exact ih h
  | case4 here name rest => nomatch h
  | case5 here name stay up short rest there ih => exact ih h
  | case6 here name stay up short bytes there =>
    cases h
    exact ⟨by simp, .inl there⟩
  | case7 => nomatch h
  | case8 here name stay up short free =>
    cases h
    exact ⟨by simp, .inr ⟨free, rfl⟩⟩
  | case9 => nomatch h

section Name

variable {here : Path} {name : String} {rest : List String}

theorem followFrom_stay (stay : staysPut name = true) :
    a.followFrom here (name :: rest) = a.followFrom here rest := by
  rw [followFrom.eq_def]
  exact if_pos stay

theorem followFrom_up (stay : ¬staysPut ".." = true) :
    a.followFrom here (".." :: rest) = a.followFrom here.dropLast rest := by
  rw [followFrom.eq_def]
  exact (if_neg stay).trans (if_pos rfl)

variable (stay : ¬staysPut name = true) (up : ¬name = "..")

include stay up

theorem followFrom_long (long : nameLimit < name.utf8ByteSize) :
    a.followFrom here (name :: rest) = .blocked := by
  rw [followFrom.eq_def]
  exact (if_neg stay).trans ((if_neg up).trans (if_pos long))

/-- A name is looked up. -/
theorem followFrom_name (short : ¬nameLimit < name.utf8ByteSize) :
    a.followFrom here (name :: rest) =
      match a.node? (here ++ [name]), rest with
      | some .directory, rest => a.followFrom (here ++ [name]) rest
      | some (.file bytes), [] => .file (here ++ [name]) bytes
      | some (.file _), _ :: _ => .blocked
      | none, [] => .free (here ++ [name])
      | none, _ :: _ => .missing := by
  rw [followFrom.eq_def]
  exact (if_neg stay).trans ((if_neg up).trans (if_neg short))

/-- Names that go on where no directory is lead to no target. -/
theorem target?_followFrom_eq_none (short : ¬nameLimit < name.utf8ByteSize) (further : rest ≠ [])
    (other : a.node? (here ++ [name]) ≠ some .directory) :
    (a.followFrom here (name :: rest)).target? = none := by
  rw [followFrom_name stay up short]
  cases rest with
  | nil => exact absurd rfl further
  | cons next rest =>
    cases there : a.node? (here ++ [name]) with
    | none => rfl
    | some node =>
      cases node with
      | directory => exact absurd there other
      | file bytes => rfl

end Name

/-- On the way to a target every directory is there. -/
theorem createFrom_of_target {here : Path} {names more : List String} {target : Path × List UInt8}
    (some : more ≠ []) (h : (a.followFrom here (names ++ more)).target? = .some target) :
    a.createFrom here names = (a, true) := by
  fun_induction createFrom a here names with
  | case1 a here => rfl
  | case2 a here name rest stay ih =>
    rw [List.cons_append, followFrom_stay stay] at h
    exact ih h
  | case3 a here rest stay ih =>
    rw [List.cons_append, followFrom_up stay] at h
    exact ih h
  | case4 a here name rest stay up long =>
    rw [List.cons_append, followFrom_long stay up long] at h
    nomatch h
  | case5 a here name rest stay up short there ih =>
    rw [List.cons_append, followFrom_name stay up short, there] at h
    exact ih h
  | case6 a here name rest stay up short bytes there =>
    rw [List.cons_append, target?_followFrom_eq_none stay up short (by simp [some])
      (by simp [there])] at h
    cases h
  | case7 a here name rest stay up short free =>
    rw [List.cons_append, target?_followFrom_eq_none stay up short (by simp [some])
      (by simp [free])] at h
    cases h

/-- Once a file is written at the target of a path, the path leads to it. -/
theorem followFrom_put {here : Path} {names : List String} {path : Path} {before : List UInt8}
    (h : (a.followFrom here names).target? = some (path, before)) (bytes : List UInt8) :
    (a.put path (.file bytes)).followFrom here names = .file path bytes := by
  obtain ⟨named, there⟩ := node?_of_target h
  have kept {other : Path} (directory : a.node? other = some .directory) :
      (a.put path (.file bytes)).node? other = some .directory := by
    rw [node?_put a named, if_neg]
    · exact directory
    · rintro rfl
      rcases there with file | ⟨free, -⟩
      · nomatch file.symm.trans directory
      · nomatch free.symm.trans directory
  have written : (a.put path (.file bytes)).node? path = some (.file bytes) := by
    rw [node?_put a named, if_pos rfl]
  fun_induction followFrom a here names with
  | case1 here => nomatch h
  | case2 here name rest stay ih => rw [followFrom_stay stay, ih h]
  | case3 here rest stay ih => rw [followFrom_up stay, ih h]
  | case4 here name rest => nomatch h
  | case5 here name stay up short rest directory ih =>
    rw [followFrom_name stay up short, kept directory]
    exact ih h
  | case6 here name stay up short =>
    cases h
    rw [followFrom_name stay up short, written]
  | case7 => nomatch h
  | case8 here name stay up short =>
    cases h
    rw [followFrom_name stay up short, written]
  | case9 => nomatch h

/-- Where a path leads to something or is blocked, growing changes nothing. -/
theorem Grown.followFrom_eq (grown : Grown a b) {here : Path} {names : List String}
    (missing : a.followFrom here names ≠ .missing)
    (free : ∀ path, a.followFrom here names ≠ .free path) :
    b.followFrom here names = a.followFrom here names := by
  fun_induction followFrom a here names with
  | case1 here => rfl
  | case2 here name rest stay ih => rw [followFrom_stay stay, ih missing free]
  | case3 here rest stay ih => rw [followFrom_up stay, ih missing free]
  | case4 here name rest stay up long => exact followFrom_long stay up long
  | case5 here name stay up short rest there ih =>
    rw [followFrom_name stay up short, grown.kept there]
    exact ih missing free
  | case6 here name stay up short bytes there =>
    rw [followFrom_name stay up short, grown.kept there]
  | case7 here name stay up short bytes next rest there =>
    rw [followFrom_name stay up short, grown.kept there]
  | case8 here name => exact absurd rfl (free _)
  | case9 => exact absurd rfl missing

/-! ## The directories above a path -/

theorem isPathText_of_append {above rest : String} (h : isPathText (above ++ rest) = true) :
    isPathText above = true := by
  simp only [isPathText, Bool.and_eq_true, decide_eq_true_eq, List.all_eq_true,
    String.utf8ByteSize_append, String.toList_append, List.mem_append] at h ⊢
  exact ⟨by omega, fun c member => h.2 c (.inl member)⟩

/-- The parent of a path joins all names but the last ones, and does not end in one that stays. -/
theorem parentOf?_eq_some {written above : String} (h : parentOf? written = some above) :
    ∃ names more, pathNames written = names ++ more ∧ more ≠ [] ∧
      above = "/".intercalate names ∧ ∀ last ∈ names.getLast?, staysPut last = false := by
  unfold parentOf? at h
  split at h
  · nomatch h
  · rename_i last before cut
    cases h
    refine ⟨(before.dropWhile staysPut).reverse,
      ((pathNames written).reverse.takeWhile staysPut ++
        last :: before.takeWhile staysPut).reverse, ?_, by simp, rfl, ?_⟩
    · rw [← List.reverse_append, List.append_assoc, List.cons_append,
        List.takeWhile_append_dropWhile, ← cut, List.takeWhile_append_dropWhile,
        List.reverse_reverse]
    · intro name final
      rw [List.getLast?_reverse] at final
      have := List.head?_dropWhile_not staysPut before
      rw [final] at this
      simpa using this

theorem endsInDot_eq_false {written : String}
    (final : ∀ last ∈ (pathNames written).getLast?, staysPut last = false) :
    endsInDot written = false := by
  rw [← List.head?_reverse] at final
  unfold endsInDot
  cases backwards : (pathNames written).reverse with
  | nil => rfl
  | cons last more =>
    have moves := final last (by rw [backwards]; rfl)
    simp only [staysPut, Bool.or_eq_false_iff, decide_eq_false_iff_not] at moves
    rw [List.dropWhile_cons_of_neg (by simpa using moves.1)]
    simpa using moves.2

/-- The directories above a path are those that all but its last names lead through, unless the path
is none. -/
theorem createAbove_cases (written : String) : ∃ names more,
    pathNames written = names ++ more ∧ more ≠ [] ∧
      ((∀ a : FileArea, a.createAbove written = a.createFrom [] names) ∨
        (isPathText written = false ∧ ∀ a : FileArea, a.createAbove written = (a, false))) := by
  unfold createAbove
  cases parent : parentOf? written with
  | none => exact ⟨[], pathNames written, rfl, pathNames_ne_nil written, .inl fun a => rfl⟩
  | some above =>
    obtain ⟨names, more, split, some, rfl, final⟩ := parentOf?_eq_some parent
    refine ⟨names, more, split, some, ?_⟩
    by_cases top : names = []
    · subst top
      exact .inl fun a => rfl
    · have whole : ∀ n ∈ names, '/' ∉ n.toList := fun n member =>
        slash_not_mem_pathNames (split ▸ List.mem_append_left more member)
      have listed : pathNames ("/".intercalate names) = names := pathNames_intercalate top whole
      have dotless : endsInDot ("/".intercalate names) = false :=
        endsInDot_eq_false (listed.symm ▸ final)
      cases readable : isPathText ("/".intercalate names) with
      | true =>
        left
        intro a
        simp only [createDirectories, readable, dotless, listed]
        rfl
      | false =>
        right
        refine ⟨?_, fun a => by simp only [createDirectories, readable]; rfl⟩
        have joined : written = "/".intercalate names ++ ("/" ++ "/".intercalate more) := by
          rw [← String.append_assoc, ← String.intercalate_append_of_ne_nil top some, ← split,
            intercalate_pathNames]
        cases text : isPathText written with
        | false => rfl
        | true =>
          rw [joined] at text
          exact (isPathText_of_append text).symm.trans readable

theorem createAbove_grown (a : FileArea) (written : String) :
    Grown a (a.createAbove written).1 := by
  obtain ⟨names, -, -, -, created | ⟨-, refused⟩⟩ := createAbove_cases written
  · rw [created]
    exact createFrom_grown a [] names
  · rw [refused]
    exact .refl a

theorem createAbove_createAbove (a : FileArea) (written : String) :
    (a.createAbove written).1.createAbove written = a.createAbove written := by
  obtain ⟨names, -, -, -, created | ⟨-, refused⟩⟩ := createAbove_cases written
  · simp only [created, createFrom_createFrom]
  · simp only [refused]

/-- Above a file, or a place that is free for one, every directory is there. -/
theorem createAbove_of_target {written : String} {target : Path × List UInt8}
    (h : (a.follow written).target? = some target) : a.createAbove written = (a, true) := by
  unfold follow at h
  split at h
  · rename_i text
    obtain ⟨names, more, split, some, created | ⟨refused, -⟩⟩ := createAbove_cases written
    · rw [split] at h
      rw [created]
      exact createFrom_of_target some h
    · exact Bool.noConfusion (text.symm.trans refused)
  · nomatch h

theorem follow_put {written : String} {path : Path} {before : List UInt8}
    (h : (a.follow written).target? = some (path, before)) (bytes : List UInt8) :
    (a.put path (.file bytes)).follow written = .file path bytes := by
  unfold follow at h ⊢
  split at h
  · rename_i readable
    rw [if_pos readable]
    exact followFrom_put h bytes
  · nomatch h

theorem Grown.follow_eq (grown : Grown a b) {written : String}
    (missing : a.follow written ≠ .missing) (free : ∀ path, a.follow written ≠ .free path) :
    b.follow written = a.follow written := by
  unfold follow at missing free ⊢
  split
  · rename_i readable
    simp only [if_pos readable] at missing free
    exact grown.followFrom_eq missing free
  · rfl

/-! ## Reading and appending -/

/-- What reads as a text are its UTF-8 bytes. -/
theorem read_eq_text_iff {written text : String} :
    a.read written = .text text ↔ ∃ path, a.follow written = .file path (Text.Utf8.encode text) := by
  unfold read
  constructor
  · intro there
    split at there
    · next path bytes found =>
      split at there
      · next decoded =>
        cases there
        exact ⟨path, by rw [found, Text.Utf8.decode?_eq_some_iff.1 decoded]⟩
      · cases there
    · cases there
    · cases there
    · cases there
    · cases there
  · rintro ⟨path, found⟩
    simp only [found, Text.Utf8.decode?_encode]

theorem followFrom_passAppend (a : FileArea) (here : Path) (names : List String) :
    a.passAppend.followFrom here names = a.followFrom here names := by
  have node (path : Path) : a.passAppend.node? path = a.node? path := rfl
  fun_induction followFrom a here names with
  | case1 here => rfl
  | case2 here name rest stay ih => rw [followFrom_stay stay, ih]
  | case3 here rest stay ih => rw [followFrom_up stay, ih]
  | case4 here name rest stay up long => exact followFrom_long stay up long
  | case5 here name stay up short rest there ih =>
    rw [followFrom_name stay up short, node, there]
    exact ih
  | case6 here name stay up short bytes there
  | case7 here name stay up short bytes next rest there
  | case8 here name stay up short there
  | case9 here name stay up short next rest there =>
    rw [followFrom_name stay up short, node, there]

theorem follow_passAppend (a : FileArea) (written : String) :
    a.passAppend.follow written = a.follow written := by
  rw [follow, follow, followFrom_passAppend]

theorem createFrom_passAppend (a : FileArea) (here : Path) (names : List String) :
    a.passAppend.createFrom here names =
      ((a.createFrom here names).1.passAppend, (a.createFrom here names).2) := by
  have node (a : FileArea) (path : Path) : a.passAppend.node? path = a.node? path := rfl
  fun_induction createFrom a here names with
  | case1 a here => rfl
  | case2 a here name rest stay ih => rw [createFrom, if_pos stay, ih]
  | case3 a here rest stay ih => rw [createFrom, if_neg stay, if_pos rfl, ih]
  | case4 a here name rest stay up long => rw [createFrom, if_neg stay, if_neg up, if_pos long]
  | case5 a here name rest stay up short there ih =>
    rw [createFrom, if_neg stay, if_neg up, if_neg short]
    simp only [node, there, ih]
  | case6 a here name rest stay up short bytes there =>
    rw [createFrom, if_neg stay, if_neg up, if_neg short]
    simp only [node, there]
  | case7 a here name rest stay up short free ih =>
    rw [createFrom, if_neg stay, if_neg up, if_neg short]
    simp only [node, free]
    exact ih

theorem createAbove_passAppend (a : FileArea) (written : String) :
    a.passAppend.createAbove written =
      ((a.createAbove written).1.passAppend, (a.createAbove written).2) := by
  obtain ⟨names, -, -, -, created | ⟨-, refused⟩⟩ := createAbove_cases written
  · simp only [created, createFrom_passAppend]
  · simp only [refused]

theorem nextAppend_createFrom (a : FileArea) (here : Path) (names : List String) :
    (a.createFrom here names).1.nextAppend = a.nextAppend := by
  fun_induction createFrom a here names with
  | case1 a here => rfl
  | case2 a here name rest stay ih => exact ih
  | case3 a here rest stay ih => exact ih
  | case4 a here name rest => rfl
  | case5 a here name rest stay up short there ih => exact ih
  | case6 a here name rest => rfl
  | case7 a here name rest stay up short free ih => exact ih

theorem nextAppend_createAbove (a : FileArea) (written : String) :
    (a.createAbove written).1.nextAppend = a.nextAppend := by
  obtain ⟨names, -, -, -, created | ⟨-, refused⟩⟩ := createAbove_cases written
  · rw [created, nextAppend_createFrom]
  · rw [refused]

/-- Where no file can be, nothing is opened. -/
theorem append_of_target_eq_none {written : String} (h : (a.follow written).target? = none)
    (bytes : List UInt8) : a.append written bytes = (a.passAppend, .unopened) := by
  simp only [append, h]

theorem append_of_unopened (h : a.nextAppend = .unopened) (written : String)
    (bytes : List UInt8) : a.append written bytes = (a.passAppend, .unopened) := by
  rw [append, h]
  cases (a.follow written).target? <;> rfl

/-- An opened file has its bytes and behind them what gets into it. -/
theorem append_of_target {written : String} {path : Path} {before : List UInt8}
    (h : (a.follow written).target? = some (path, before)) (opened : a.nextAppend ≠ .unopened)
    (bytes : List UInt8) :
    a.append written bytes =
      (a.passAppend.put path (.file (before ++ a.nextAppend.part bytes)), a.nextAppend) := by
  unfold append
  simp only [h]

end FileArea

end ChangeAudit
