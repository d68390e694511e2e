import ChangeAudit.Proofs.Sink.File
import Mathlib.Data.List.Forall2

/-!
# Batches come back from a file

A file that is empty at first is made of what the batches leave in it, one after the other
(`Holds.emitAll`). As long as nothing is left of the batches that were not accepted, that is the lines
of the accepted ones, and their events are read back. **`faithful`** puts this together for a whole run
of batches offered to a sink whose file is absent or empty.
-/

namespace ChangeAudit.FileSink

variable {s : FileSink} {path : Path} {before : List UInt8}

/-- The sink after batches were offered one after the other, and the answers. -/
def emitAll : FileSink → List (List Event) → FileSink × List (Except SinkFault Unit)
  | s, [] => (s, [])
  | s, batch :: batches =>
    let (next, answer) := s.emit batch
    let (last, answers) := next.emitAll batches
    (last, answer :: answers)

/-- The events of the batches whose answer was positive, in order. -/
def accepted (batches : List (List Event)) (answers : List (Except SinkFault Unit)) : List Event :=
  ((batches.zip answers).filter (·.2.isOk)).flatMap (·.1)

/-- What gets into the file from each of the batches. -/
def parts : FileSink → List (List Event) → List (Option (List UInt8))
  | _, [] => []
  | s, batch :: batches => s.part? batch :: (s.emit batch).1.parts batches

/-- The bytes of parts, one after the other. -/
def joined (parts : List (Option (List UInt8))) : List UInt8 := parts.flatMap (·.getD [])

theorem emitAll_cons (s : FileSink) (batch : List Event) (batches : List (List Event)) :
    s.emitAll (batch :: batches) =
      (((s.emit batch).1.emitAll batches).1,
        (s.emit batch).2 :: ((s.emit batch).1.emitAll batches).2) := rfl

theorem joined_cons (part : Option (List UInt8)) (parts : List (Option (List UInt8))) :
    joined (part :: parts) = part.getD [] ++ joined parts := rfl

theorem accepted_cons (batch : List Event) (batches : List (List Event))
    (answer : Except SinkFault Unit) (answers : List (Except SinkFault Unit)) :
    accepted (batch :: batches) (answer :: answers) =
      (if answer.isOk then batch else []) ++ accepted batches answers := by
  unfold accepted
  cases answer <;> rfl

theorem length_emitAll (s : FileSink) (batches : List (List Event)) :
    (s.emitAll batches).2.length = batches.length := by
  induction batches generalizing s with
  | nil => rfl
  | cons batch batches ih => rw [emitAll_cons, List.length_cons, List.length_cons, ih]

theorem path_emitAll (s : FileSink) (batches : List (List Event)) :
    (s.emitAll batches).1.path = s.path := by
  induction batches generalizing s with
  | nil => rfl
  | cons batch batches ih => rw [emitAll_cons, ih, (s.emits batch).path]

/-- Every batch of a run leaves its part. -/
theorem emitAll_leaves (s : FileSink) (batches : List (List Event)) :
    List.Forall₂ (fun offer part => Leaves s.path offer.1 offer.2 part)
      (batches.zip (s.emitAll batches).2) (s.parts batches) := by
  induction batches generalizing s with
  | nil => exact .nil
  | cons batch batches ih =>
    have rest := ih (s.emit batch).1
    rw [(s.emits batch).path] at rest
    rw [emitAll_cons, parts, List.zip_cons_cons]
    exact .cons (s.emits batch).leaves rest

theorem target?_emitAll (s : FileSink) (batches : List (List Event)) :
    (s.emitAll batches).1.target? =
      s.target?.map fun (path, before) => (path, before ++ joined (s.parts batches)) := by
  induction batches generalizing s with
  | nil => simp [emitAll, parts, joined]
  | cons batch batches ih =>
    rw [emitAll_cons, ih, (s.emits batch).target, parts, joined_cons]
    simp only [Option.map_map, Function.comp_def, List.append_assoc]

/-- Over a run the bytes of all parts come behind those that the sink holds. -/
theorem Holds.emitAll (h : s.Holds path before) (batches : List (List Event)) :
    (s.emitAll batches).1.Holds path (before ++ joined (s.parts batches)) := by
  induction batches generalizing s before with
  | nil => rwa [parts, joined, List.flatMap_nil, List.append_nil]
  | cons batch batches ih =>
    have last := ih (h.emit batch)
    rwa [List.append_assoc] at last

/-- If nothing is left of the batches that were not accepted, the parts are the accepted ones. -/
theorem joined_eq_bytes {written : String} {batches : List (List Event)}
    {answers : List (Except SinkFault Unit)} {parts : List (Option (List UInt8))}
    (leaves : List.Forall₂ (fun offer part => Leaves written offer.1 offer.2 part)
      (batches.zip answers) parts)
    (clean : ∀ answered ∈ answers.zip parts,
      answered.1.isOk = false → answered.2.getD [] = []) :
    joined parts = bytes (accepted batches answers) := by
  induction batches generalizing answers parts with
  | nil =>
    cases leaves
    exact bytes_nil.symm
  | cons batch batches ih =>
    cases answers with
    | nil =>
      cases leaves
      exact bytes_nil.symm
    | cons answer answers =>
      cases leaves with
      | cons first rest =>
        next part parts =>
        rw [List.zip_cons_cons, List.forall_mem_cons] at clean
        have here : part.getD [] = bytes (if answer.isOk then batch else []) := by
          cases answer with
          | error fault =>
            rw [clean.1 rfl]
            exact bytes_nil.symm
          | ok =>
            cases first with
            | idle empty =>
              obtain rfl : batch = [] := empty
              exact bytes_nil.symm
            | accepted => rfl
        rw [joined_cons, here, accepted_cons, bytes_append, ih rest clean.2]

theorem parts_of_target_eq_none (h : s.target? = none) (batches : List (List Event)) :
    ∀ part ∈ s.parts batches, part = none := by
  induction batches generalizing s with
  | nil => exact List.forall_mem_nil _
  | cons batch batches ih =>
    rw [parts, List.forall_mem_cons]
    refine ⟨if_pos (.inr (.inl h)), ih ?_⟩
    rw [(s.emits batch).target, h]
    rfl

theorem joined_of_target_eq_none (h : s.target? = none) (batches : List (List Event)) :
    joined (s.parts batches) = [] := by
  rw [joined, List.flatMap_eq_nil_iff]
  intro part member
  rw [parts_of_target_eq_none h batches part member]
  rfl

/-- Where a sink cannot write, it accepts no events. -/
theorem accepted_of_target_eq_none (h : s.target? = none) (batches : List (List Event)) :
    accepted batches (s.emitAll batches).2 = [] := by
  refine bytes_eq_nil ?_
  rw [← joined_eq_bytes (s.emitAll_leaves batches), joined_of_target_eq_none h]
  intro answered member _
  rw [parts_of_target_eq_none h batches _ (List.of_mem_zip member).2]
  rfl

/-- Where a sink cannot write, it refuses something or is as it was. -/
theorem emitAll_of_target_eq_none (h : s.target? = none) (batches : List (List Event)) :
    (s.emitAll batches).1 = s ∨ ∃ fault, .error fault ∈ (s.emitAll batches).2 := by
  induction batches with
  | nil => exact .inl rfl
  | cons batch batches ih =>
    rw [emitAll_cons]
    cases answer : (s.emit batch).2 with
    | error fault => exact .inr ⟨fault, List.mem_cons_self⟩
    | ok =>
      obtain rfl : batch = [] := by
        rcases emit_eq_ok_iff.1 answer with none | ⟨can, -⟩
        · exact none
        · simp [h] at can
      rcases ih with same | ⟨fault, member⟩
      · exact .inl same
      · exact .inr ⟨fault, List.mem_cons_of_mem _ member⟩

theorem readAll_of_start (start : s.files.read s.path = .missing ∨ s.files.read s.path = .text "") :
    s.readAll = .ok [] := by
  rcases start with missing | empty
  · rw [readAll, missing]
  · rw [readAll, empty]
    rfl

theorem holds_of_fresh {place : Path × List UInt8}
    (fresh : ∀ path bytes,
      (s.files.createAbove s.path).1.follow s.path = .file path bytes → bytes = [])
    (h : s.target? = some place) : s.Holds place.1 [] := by
  obtain ⟨path, before⟩ := place
  obtain rfl : before = [] := by
    rcases spot_of_target h with file | ⟨-, empty⟩
    · exact fresh path before file
    · exact empty
  exact ⟨h, fun some => absurd rfl some⟩

/-- What holds of a sink after batches were offered to it. -/
structure Faithful (s : FileSink) (batches : List (List Event)) : Prop where
  answered : (s.emitAll batches).2.length = batches.length
  /-- Each batch has left its part. -/
  leaves : List.Forall₂ (fun offer part => Leaves s.path offer.1 offer.2 part)
    (batches.zip (s.emitAll batches).2) (s.parts batches)
  /-- The file is made of these parts, in order. -/
  found : joined (s.parts batches) ≠ [] → ∃ path,
    (s.emitAll batches).1.files.follow s.path = .file path (joined (s.parts batches))
  /-- If nothing is left of the batches that were not accepted, the events read back are those of the
  accepted ones. Only if a batch was not accepted and none with events was may the file turn out to be
  unreadable. -/
  reads : (∀ answered ∈ (s.emitAll batches).2.zip (s.parts batches),
      answered.1.isOk = false → answered.2.getD [] = []) →
    (s.emitAll batches).1.readAll = .ok (accepted batches (s.emitAll batches).2) ∨
      ((∃ fault, .error fault ∈ (s.emitAll batches).2) ∧
        accepted batches (s.emitAll batches).2 = [] ∧
        (s.emitAll batches).1.readAll = .error (.sink (.read s.path)))
  /-- A batch with events is accepted next exactly if the sink could write from the start and the
  append goes whole. -/
  accepts : ∀ batch, ((s.emitAll batches).1.emit batch).2 = .ok () ↔
    batch = [] ∨ s.target?.isSome = true ∧ (s.emitAll batches).1.files.nextAppend = .whole
  /-- The next batch leaves its part behind the bytes of the file, and every other file as it was. -/
  next : ∀ batch, ∃ part, Leaves s.path batch ((s.emitAll batches).1.emit batch).2 part ∧
    (s.emitAll batches).1.Extends ((s.emitAll batches).1.emit batch).1 part
  /-- An empty batch changes nothing at all. -/
  idle : (s.emitAll batches).1.emit [] = ((s.emitAll batches).1, .ok ())

/-- **Batches come back.** A sink is started on a file that is absent or empty, also where its path
leads once the directories above it are created. -/
theorem faithful {s : FileSink}
    (start : s.files.read s.path = .missing ∨ s.files.read s.path = .text "")
    (fresh : ∀ path bytes,
      (s.files.createAbove s.path).1.follow s.path = .file path bytes → bytes = [])
    (batches : List (List Event)) : s.Faithful batches where
  answered := s.length_emitAll batches
  leaves := s.emitAll_leaves batches
  found some := by
    cases target : s.target? with
    | none => exact absurd (joined_of_target_eq_none target batches) some
    | some place =>
      have last := (holds_of_fresh fresh target).emitAll batches
      rw [List.nil_append] at last
      rw [← s.path_emitAll batches]
      exact ⟨_, last.present some⟩
  reads clean := by
    have left := joined_eq_bytes (s.emitAll_leaves batches) clean
    cases target : s.target? with
    | none =>
      have still : (s.emitAll batches).1.target? = none := by rw [target?_emitAll, target]; rfl
      rw [accepted_of_target_eq_none target, ← s.path_emitAll batches]
      rcases readAll_of_target_eq_none still with ok | fails
      · exact .inl ok
      · rcases emitAll_of_target_eq_none target batches with same | refused
        · rw [same, readAll_of_start start] at fails
          cases fails
        · exact .inr ⟨refused, rfl, fails⟩
    | some place =>
      have last := (holds_of_fresh fresh target).emitAll batches
      rw [List.nil_append, left] at last
      exact .inl last.readAll
  accepts batch := by
    rw [emit_eq_ok_iff, target?_emitAll, Option.isSome_map]
  next batch := by
    have emits := (s.emitAll batches).1.emits batch
    have leaves := emits.leaves
    rw [s.path_emitAll batches] at leaves
    exact ⟨_, leaves, emits.files⟩
  idle := emit_nil _

/-- Line breaks and quotes inside a value, a leap second and years of more or less than four digits,
and a batch between them of which nothing could be written. -/
theorem faithful_odd_events :
    let s : FileSink := ⟨"audit/events.log", { FileArea.empty with appends := [.whole, .unwritten 0] }⟩
    let broken := statusUpdate "e1" "a\r\n\"b\"\x00\\é"
      ⟨⟨-44, 3, 15, by decide⟩, 86399, 1500000000, by decide, by decide⟩
    let late := statusUpdate "e2" "" ⟨⟨10000, 1, 1, by decide⟩, 0, 1, by decide, by decide⟩
    (s.emitAll [[broken], [], [late], [late, broken]]).2 =
        [.ok (), .ok (), .error (.write "audit/events.log"), .ok ()] ∧
      (s.emitAll [[broken], [], [late], [late, broken]]).1.readAll = .ok [broken, late, broken] := by
  intro s broken late
  have missing : s.files.read s.path = .missing := by decide +kernel
  have free : (s.files.createAbove s.path).1.follow s.path = .free ["audit", "events.log"] := by
    decide +kernel
  have answers : (s.emitAll [[broken], [], [late], [late, broken]]).2 =
      [.ok (), .ok (), .error (.write "audit/events.log"), .ok ()] := by
    decide +kernel
  have clean : ∀ answered ∈ (s.emitAll [[broken], [], [late], [late, broken]]).2.zip
      (s.parts [[broken], [], [late], [late, broken]]),
      answered.1.isOk = false → answered.2.getD [] = [] := by
    decide +kernel
  have held := faithful (.inl missing)
    (fun _ _ found => by rw [free] at found; nomatch found) [[broken], [], [late], [late, broken]]
  refine ⟨answers, ?_⟩
  rcases held.reads clean with read | ⟨-, none, -⟩
  · rw [read, answers]
    rfl
  · rw [answers] at none
    nomatch none

/-- A path may lead elsewhere once the directories above it are created: here `d`, above a step up.
A refused batch then leaves a path that cannot be read, where it was only missing before; an
accepted one follows events that could not be read before. And a batch whose writing stops after its
first byte leaves that byte, alone on its line. -/
theorem readAll_ne_accepted :
    let e := statusUpdate "e1" "paid" ⟨⟨2024, 1, 1, by decide⟩, 32400, 0, by decide, by decide⟩
    let blocked : FileSink := ⟨"d/../f/e.log", FileArea.empty.put ["f"] (.file [])⟩
    let filled : FileSink := ⟨"d/../e.log", FileArea.empty.put ["e.log"] (.file (bytes [e]))⟩
    let torn : FileSink := ⟨"e.log", { FileArea.empty with appends := [.unwritten 1] }⟩
    (blocked.files.read blocked.path = .missing ∧
        accepted [[e]] (blocked.emitAll [[e]]).2 = [] ∧
        (blocked.emitAll [[e]]).1.readAll = .error (.sink (.read blocked.path))) ∧
      (filled.files.read filled.path = .missing ∧
        accepted [[e]] (filled.emitAll [[e]]).2 = [e] ∧
        (filled.emitAll [[e]]).1.readAll = .ok [e, e]) ∧
      (torn.files.read torn.path = .missing ∧
        (torn.emitAll [[e]]).2 = [.error (.write torn.path)] ∧
        (torn.emitAll [[e]]).1.files.read torn.path = .text "\x7b" ∧
        (torn.emitAll [[e]]).1.readAll = .error .unreadable) := by
  intro e blocked filled torn
  have none : blocked.target? = .none := by decide +kernel
  have refused : (blocked.emitAll [[e]]).1.files.read blocked.path = .refused := by decide +kernel
  have nothing := accepted_of_target_eq_none none [[e]]
  have some : filled.target? = .some (["e.log"], bytes [e]) := by decide +kernel
  have ok : (filled.emit [e]).2 = .ok () := emit_eq_ok_iff.2 (.inr ⟨by rw [some]; rfl, rfl⟩)
  have holds := holds_of_part? some (part?_of_ok (List.cons_ne_nil e []) ok)
  rw [← bytes_append] at holds
  refine ⟨⟨by decide +kernel, nothing, ?_⟩, ⟨by decide +kernel, ?_, holds.readAll⟩,
    by decide +kernel, by decide +kernel, by decide +kernel, ?_⟩
  · rw [readAll, path_emitAll, refused]
  · rw [emitAll_cons, ok]
    rfl
  · rw [readAll, path_emitAll]
    decide +kernel

end ChangeAudit.FileSink
