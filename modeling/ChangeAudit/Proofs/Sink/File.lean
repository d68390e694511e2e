import ChangeAudit.Proofs.Event
import ChangeAudit.Proofs.FileArea
import ChangeAudit.Sink.File

/-!
# One batch in a file

Every event is one line of the file: its text has no control character, so no line feed inside it
and no carriage return at its end, and it is not blank. So the text that batches leave is read as
the events of these batches (`eventsOf?_lines`).

A sink can write at its path if the directories above it can be created and the path then leads to a
file or a free place (`target?`). What a batch leaves there goes with its answer: an accepted one is
there whole, and of one whose writing or flushing failed there are the first bytes; no other file ever
changes (`emits`).
-/

namespace ChangeAudit.FileSink

/-! ## One line an event -/

theorem exists_render_eq_cons (e : Event) : ∃ cs, e.toJson.render = '{' :: cs := ⟨_, rfl⟩

theorem le_toNat_of_mem_render {e : Event} {c : Char} (h : c ∈ e.toJson.render) : 32 ≤ c.toNat :=
  Json.le_toNat_of_mem_render e.toJson Term.maxDepth e.legible_toJson c h

theorem lines_lines (events : List Event) :
    Text.lines (lines events).toList = events.map (·.toJson.render) := by
  have each : events.flatMap line = (events.map (·.toJson.render)).flatMap (· ++ ['\n']) := by
    rw [List.flatMap_map]
    rfl
  rw [lines, String.toList_ofList, each]
  refine Text.lines_flatMap (fun l member feed => ?_) (fun l member back => ?_)
  · obtain ⟨e, -, rfl⟩ := List.mem_map.1 member
    exact absurd (le_toNat_of_mem_render feed) (by decide)
  · obtain ⟨e, -, rfl⟩ := List.mem_map.1 member
    exact absurd (le_toNat_of_mem_render (List.mem_of_getLast? back)) (by decide)

theorem isBlankLine_render (e : Event) : Text.isBlankLine e.toJson.render = false := by
  obtain ⟨cs, written⟩ := exists_render_eq_cons e
  rw [written]
  rfl

theorem mapM_eventOf? (events : List Event) :
    (events.map (·.toJson.render)).mapM eventOf? = some events := by
  induction events with
  | nil => rfl
  | cons e events ih =>
    have first : eventOf? e.toJson.render = some e := e.decode?_parseChars?_render
    rw [List.map_cons, List.mapM_cons, first, ih]
    rfl

/-- The lines of events are read as these events. -/
theorem eventsOf?_lines (events : List Event) : eventsOf? (lines events) = some events := by
  have visible : (events.map (·.toJson.render)).filter (fun l => !Text.isBlankLine l) =
      events.map (·.toJson.render) := by
    rw [List.filter_eq_self]
    intro l member
    obtain ⟨e, -, rfl⟩ := List.mem_map.1 member
    rw [isBlankLine_render]
    rfl
  rw [eventsOf?, lines_lines, visible, mapM_eventOf?]

theorem lines_nil : lines [] = "" := by
  rw [lines, List.flatMap_nil, String.ofList_nil]

theorem lines_append (before after : List Event) :
    lines (before ++ after) = lines before ++ lines after := by
  rw [lines, List.flatMap_append, String.ofList_append]
  rfl

theorem bytes_nil : bytes [] = [] := by
  rw [bytes, lines_nil, Text.Utf8.encode_empty]

theorem bytes_append (before after : List Event) :
    bytes (before ++ after) = bytes before ++ bytes after := by
  rw [bytes, lines_append, Text.Utf8.encode_append]
  rfl

/-! ## One batch -/

/-- Where the path leads once the directories above it are created, and the bytes that are there;
nothing if they cannot be created or if it leads to no place for a file. -/
def target? (s : FileSink) : Option (Path × List UInt8) :=
  match s.files.createAbove s.path with
  | (files, true) => (files.follow s.path).target?
  | (_, false) => none

/-- What gets into the file from a batch; none if the file is not opened. -/
def part? (s : FileSink) (batch : List Event) : Option (List UInt8) :=
  if batch = [] ∨ s.target? = none ∨ s.files.nextAppend = .unopened then none
  else some (s.files.nextAppend.part (bytes batch))

/-- What may get into the file at a path from a batch, by the answer. An accepted batch is there
whole; of one whose writing or flushing failed there are the first bytes, however many. -/
inductive Leaves (path : String) (batch : List Event) :
    Except SinkFault Unit → Option (List UInt8) → Prop where
  | idle (empty : batch = []) : Leaves path batch (.ok ()) none
  | accepted (events : batch ≠ []) : Leaves path batch (.ok ()) (some (bytes batch))
  | noDirectory : Leaves path batch (.error (.createDirectory ((parentOf? path).getD ""))) none
  | unopened : Leaves path batch (.error (.openFile path)) none
  | unwritten (after : Nat) : Leaves path batch (.error (.write path)) ((bytes batch).take after)
  | unflushed (after : Nat) : Leaves path batch (.error (.flush path)) ((bytes batch).take after)

/-- Bytes have come behind those of the file that the path leads to, and every other file is as it
was; with none, every file is. -/
def Extends (s next : FileSink) : Option (List UInt8) → Prop
  | none => ∀ path, next.files.bytes? path = s.files.bytes? path
  | some part => ∃ path,
    next.files.follow s.path = .file path ((s.files.bytes? path).getD [] ++ part) ∧
      ∀ other, other ≠ path → next.files.bytes? other = s.files.bytes? other

variable {s : FileSink} {batch : List Event} {path : Path} {before : List UInt8}

theorem emit_nil (s : FileSink) : s.emit [] = (s, .ok ()) := rfl

theorem leaves_answerTo {how : Appending} (path : String) (some : batch ≠ [])
    (opened : how ≠ .unopened) :
    Leaves path batch (answerTo path how) (how.part (bytes batch)) := by
  cases how with
  | whole => exact .accepted some
  | unopened => exact absurd rfl opened
  | unwritten after => exact .unwritten after
  | unflushed after => exact .unflushed after

theorem target?_of_follow (h : (s.files.follow s.path).target? = some (path, before)) :
    s.target? = some (path, before) := by
  rw [target?, FileArea.createAbove_of_target h]
  exact h

theorem follow_of_target (h : s.target? = some (path, before)) :
    ((s.files.createAbove s.path).1.follow s.path).target? = some (path, before) := by
  unfold target? at h
  split at h
  · rename_i files created
    rw [created]
    exact h
  · nomatch h

/-- A sink writes to a file that is there, or to a free place. -/
theorem spot_of_target (h : s.target? = some (path, before)) :
    (s.files.createAbove s.path).1.follow s.path = .file path before ∨
      (s.files.createAbove s.path).1.follow s.path = .free path ∧ before = [] := by
  have there := follow_of_target h
  cases found : (s.files.createAbove s.path).1.follow s.path with
  | file p b =>
    rw [found] at there
    cases there
    exact .inl rfl
  | free p =>
    rw [found] at there
    cases there
    exact .inr ⟨rfl, rfl⟩
  | directory p | missing | blocked =>
    rw [found] at there
    cases there

/-- The bytes of the place that a sink writes to are those of the file there, if one is. -/
theorem bytes?_of_target (h : s.target? = some (path, before)) :
    path ≠ [] ∧ (s.files.bytes? path).getD [] = before := by
  have there := follow_of_target h
  unfold FileArea.follow at there
  split at there
  · obtain ⟨named, node⟩ := FileArea.node?_of_target there
    refine ⟨named, ?_⟩
    rw [← (FileArea.createAbove_grown s.files s.path).bytes?_eq]
    rcases node with file | ⟨free, rfl⟩
    · rw [FileArea.bytes?_eq_some_iff.2 file]
      rfl
    · rw [FileArea.bytes?, free]
      rfl
  · cases there

/-- The sink after a batch for which no file was opened: directories may have come. -/
structure Untouched (s next : FileSink) : Prop where
  path : next.path = s.path
  grown : s.files.Grown next.files
  target : next.target? = s.target?

theorem untouched_createAbove (s : FileSink) :
    s.Untouched { s with files := (s.files.createAbove s.path).1 } where
  path := rfl
  grown := FileArea.createAbove_grown s.files s.path
  target := by
    unfold target?
    rw [FileArea.createAbove_createAbove]

theorem untouched_passAppend (s : FileSink) :
    s.Untouched { s with files := (s.files.createAbove s.path).1.passAppend } where
  path := rfl
  grown :=
    have grown := FileArea.createAbove_grown s.files s.path
    ⟨grown.kept, grown.added⟩
  target := by
    simp only [target?, FileArea.createAbove_passAppend, FileArea.createAbove_createAbove]
    cases s.files.createAbove s.path with
    | mk files done =>
      cases done with
      | true => exact congrArg Spot.target? (files.follow_passAppend s.path)
      | false => rfl

theorem emit_of_closed (some : batch ≠ [])
    (closed : s.target? = none ∨ s.files.nextAppend = .unopened) :
    Leaves s.path batch (s.emit batch).2 none ∧ s.Untouched (s.emit batch).1 := by
  unfold emit
  rw [if_neg some]
  split
  · next files created =>
    have untouched := untouched_createAbove s
    rw [created] at untouched
    exact ⟨.noDirectory, untouched⟩
  · next files created =>
    have unopened : files.append s.path (bytes batch) = (files.passAppend, .unopened) := by
      rcases closed with nowhere | unopened
      · rw [target?, created] at nowhere
        exact FileArea.append_of_target_eq_none nowhere _
      · refine FileArea.append_of_unopened ?_ _ _
        rw [← unopened, ← FileArea.nextAppend_createAbove s.files s.path, created]
    have untouched := untouched_passAppend s
    rw [created] at untouched
    simp only [unopened]
    exact ⟨.unopened, untouched⟩

theorem emit_of_opened (some : batch ≠ []) (h : s.target? = .some (path, before))
    (opened : s.files.nextAppend ≠ .unopened) :
    s.emit batch = ({ s with
      files := (s.files.createAbove s.path).1.passAppend.put path
        (.file (before ++ s.files.nextAppend.part (bytes batch))) },
      answerTo s.path s.files.nextAppend) := by
  have next := FileArea.nextAppend_createAbove s.files s.path
  unfold target? at h
  unfold emit
  rw [if_neg some]
  split at h
  · next files created =>
    rw [created] at next ⊢
    simp only [FileArea.append_of_target h (next ▸ opened), next]
  · nomatch h

/-- What one batch does: what it leaves in the file and in no other, and where the sink stands. -/
structure Emits (s : FileSink) (batch : List Event) : Prop where
  path : (s.emit batch).1.path = s.path
  leaves : Leaves s.path batch (s.emit batch).2 (s.part? batch)
  files : s.Extends (s.emit batch).1 (s.part? batch)
  target : (s.emit batch).1.target? =
    s.target?.map fun (path, before) => (path, before ++ (s.part? batch).getD [])
  found : ∀ {path before}, s.files.follow s.path = .file path before →
    (s.emit batch).1.files.follow s.path = .file path (before ++ (s.part? batch).getD [])
  written : ∀ {part}, s.part? batch = some part →
    ∃ path bytes, (s.emit batch).1.files.follow s.path = .file path bytes

theorem emits_of_untouched (nothing : s.part? batch = none)
    (leaves : Leaves s.path batch (s.emit batch).2 none) (same : s.Untouched (s.emit batch).1) :
    s.Emits batch where
  path := same.path
  leaves := nothing ▸ leaves
  files := by
    rw [nothing]
    exact same.grown.bytes?_eq
  target := by
    rw [same.target, nothing]
    cases s.target? with
    | none => rfl
    | some target => simp
  found there := by
    rw [same.grown.follow_eq (by simp [there]) (by simp [there]), there, nothing]
    simp
  written some := by
    rw [nothing] at some
    nomatch some

theorem emits_of_opened (some : batch ≠ []) (h : s.target? = .some (path, before))
    (opened : s.files.nextAppend ≠ .unopened) : s.Emits batch := by
  have part : s.part? batch = .some (s.files.nextAppend.part (bytes batch)) := by
    rw [part?, if_neg]
    simp [some, h, opened]
  have emit := emit_of_opened some h opened
  obtain ⟨named, there⟩ := bytes?_of_target h
  have follow : (s.emit batch).1.files.follow s.path =
      .file path (before ++ s.files.nextAppend.part (bytes batch)) := by
    rw [emit]
    have there := follow_of_target h
    rw [← FileArea.follow_passAppend] at there
    exact FileArea.follow_put there _
  have path' : (s.emit batch).1.path = s.path := by rw [emit]
  refine ⟨path', ?_, ?_, ?_, ?_, fun _ => ⟨_, _, follow⟩⟩
  · rw [part, emit]
    exact leaves_answerTo s.path some opened
  · rw [part]
    refine ⟨path, by rw [follow, there], fun other apart => ?_⟩
    rw [emit, FileArea.bytes?_put _ named, if_neg (Ne.symm apart)]
    exact (FileArea.createAbove_grown s.files s.path).bytes?_eq other
  · rw [h, part]
    exact target?_of_follow (by rw [path', follow]; rfl)
  · intro p b found
    have same := target?_of_follow (s := s) (congrArg Spot.target? found)
    rw [h] at same
    cases same
    rw [follow, part]
    rfl

theorem emits (s : FileSink) (batch : List Event) : s.Emits batch := by
  by_cases none : batch = []
  · subst none
    exact emits_of_untouched (if_pos (.inl rfl)) (.idle rfl) ⟨rfl, .refl _, rfl⟩
  · cases target : s.target? with
    | none =>
      obtain ⟨leaves, same⟩ := emit_of_closed none (.inl target)
      exact emits_of_untouched (if_pos (.inr (.inl target))) leaves same
    | some place =>
      by_cases unopened : s.files.nextAppend = .unopened
      · obtain ⟨leaves, same⟩ := emit_of_closed none (.inr unopened)
        exact emits_of_untouched (if_pos (.inr (.inr unopened))) leaves same
      · exact emits_of_opened none target unopened

/-- A batch with events is accepted exactly if the sink can write and the append goes whole. -/
theorem emit_eq_ok_iff : (s.emit batch).2 = .ok () ↔
    batch = [] ∨ s.target?.isSome = true ∧ s.files.nextAppend = .whole := by
  by_cases none : batch = []
  · simp [none, emit_nil]
  by_cases closed : s.target? = .none ∨ s.files.nextAppend = .unopened
  · have fails : (s.emit batch).2 ≠ .ok () := by
      have leaves := (emit_of_closed none closed).1
      intro ok
      rw [ok] at leaves
      cases leaves with
      | idle empty => exact none empty
    rcases closed with nowhere | unopened
    · simp [none, fails, nowhere]
    · simp [none, fails, unopened]
  · obtain ⟨place, target⟩ := Option.ne_none_iff_exists'.1 (not_or.1 closed).1
    rw [emit_of_opened none target (not_or.1 closed).2]
    cases s.files.nextAppend <;> simp [answerTo, none, target]

/-- An accepted batch with events is in the file whole. -/
theorem part?_of_ok (some : batch ≠ []) (ok : (s.emit batch).2 = .ok ()) :
    s.part? batch = .some (bytes batch) := by
  have leaves := (s.emits batch).leaves
  rw [ok] at leaves
  generalize s.part? batch = part at leaves
  cases leaves with
  | idle empty => exact absurd empty some
  | accepted => rfl

/-! ## Reading back -/

/-- Where a sink can write, nothing but bytes that are no text is in the way of reading. -/
theorem read_of_target {text : String} (h : s.target? = some (path, Text.Utf8.encode text)) :
    s.files.read s.path = .text text ∨ s.files.read s.path = .missing := by
  have there := follow_of_target h
  have grown := FileArea.createAbove_grown s.files s.path
  cases found : s.files.follow s.path with
  | directory p | blocked =>
    rw [grown.follow_eq (by simp [found]) (by simp [found]), found] at there
    cases there
  | file p b =>
    have same := target?_of_follow (s := s) (congrArg Spot.target? found)
    rw [h] at same
    cases same
    exact .inl (FileArea.read_eq_text_iff.2 ⟨path, found⟩)
  | free p | missing =>
    right
    rw [FileArea.read, found]

theorem bytes_eq_nil {events : List Event} (h : bytes events = []) : events = [] := by
  cases events with
  | nil => rfl
  | cons e events =>
    have read := eventsOf?_lines (e :: events)
    have blank : lines (e :: events) = "" := by
      rw [← Option.some_inj, ← Text.Utf8.decode?_encode, ← Text.Utf8.decode?_encode "",
        Text.Utf8.encode_empty]
      exact congrArg _ h
    rw [blank] at read
    nomatch read

/-- The sink can write after bytes; unless there are none, its file is there and has them. -/
structure Holds (s : FileSink) (path : Path) (bytes : List UInt8) : Prop where
  target : s.target? = some (path, bytes)
  present : bytes ≠ [] → s.files.follow s.path = .file path bytes

/-- Where the sink can write it holds what got into the opened file. -/
theorem holds_of_part? {part : List UInt8} (h : s.target? = some (path, before))
    (opened : s.part? batch = some part) : (s.emit batch).1.Holds path (before ++ part) := by
  have emits := s.emits batch
  have target : (s.emit batch).1.target? = some (path, before ++ part) := by
    rw [emits.target, h, opened]
    rfl
  refine ⟨target, fun _ => ?_⟩
  obtain ⟨p, b, written⟩ := emits.written opened
  rw [← emits.path] at written
  have same := target?_of_follow (s := (s.emit batch).1) (congrArg Spot.target? written)
  rw [target] at same
  cases same
  exact written

theorem Holds.emit (h : s.Holds path before) (batch : List Event) :
    (s.emit batch).1.Holds path (before ++ (s.part? batch).getD []) := by
  cases part : s.part? batch with
  | none =>
    have emits := s.emits batch
    have target := emits.target
    rw [h.target, part] at target
    refine ⟨target, fun some => ?_⟩
    have found := emits.found (h.present (by simpa using some))
    rwa [part, ← emits.path] at found
  | some added => exact holds_of_part? h.target part

/-- A sink that holds the lines of events gives these events back. -/
theorem Holds.readAll {events : List Event} (h : s.Holds path (bytes events)) :
    s.readAll = .ok events := by
  rw [FileSink.readAll]
  rcases read_of_target h.target with written | missing
  · rw [written]
    simp only [eventsOf?_lines]
  · rw [missing]
    have empty : bytes events = [] := by
      apply Classical.byContradiction
      intro some
      rw [FileArea.read_eq_text_iff.2 ⟨path, h.present some⟩] at missing
      nomatch missing
    rw [bytes_eq_nil empty]

/-- A sink that cannot write has nothing to give back. -/
theorem readAll_of_target_eq_none (h : s.target? = none) :
    s.readAll = .ok [] ∨ s.readAll = .error (.sink (.read s.path)) := by
  unfold readAll FileArea.read
  cases found : s.files.follow s.path with
  | directory p => exact .inr rfl
  | file p b =>
    have can := target?_of_follow (s := s) (congrArg Spot.target? found)
    nomatch h.symm.trans can
  | free p => exact .inl rfl
  | missing => exact .inl rfl
  | blocked => exact .inr rfl

/-- An update of the status of an order. -/
def statusUpdate (id newValue : String) (timestamp : Instant) : Event where
  id := id
  entityType := "Order"
  entityId := "1"
  property := some "status"
  oldValue := none
  newValue := some newValue
  kind := .update
  actor := none
  timestamp := timestamp

end ChangeAudit.FileSink
