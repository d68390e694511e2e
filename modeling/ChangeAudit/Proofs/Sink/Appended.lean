import ChangeAudit.Proofs.Json.Continued
import ChangeAudit.Proofs.Sink.File

/-!
# A batch behind a text

An accepted batch is put behind whatever text its file has, and nothing looks at how that text ends.
So the first event joins what stands after the last line feed: blanks of the grammar leave it an event,
while behind an event, or behind blanks that the grammar does not know, it makes a line that says
nothing, and then no event of the file is given back (**`readAll_emit`**).
-/

namespace ChangeAudit.FileSink

/-- The events that lines write. -/
def eventsIn? (ls : List (List Char)) : Option (List Event) :=
  (ls.filter fun l => !Text.isBlankLine l).mapM eventOf?

theorem eventsOf?_eq (text : String) : eventsOf? text = eventsIn? (Text.lines text.toList) := rfl

variable {s : FileSink} {line : List Char} {text : String} {events batch : List Event}

theorem eventsIn?_append (ls more : List (List Char)) :
    eventsIn? (ls ++ more) = (eventsIn? ls).bind fun before =>
      (eventsIn? more).bind fun after => some (before ++ after) := by
  rw [eventsIn?, List.filter_append, List.mapM_append]
  rfl

theorem eventsIn?_cons (visible : Text.isBlankLine line = false) (ls : List (List Char)) :
    eventsIn? (line :: ls) =
      (eventOf? line).bind fun e => (eventsIn? ls).bind fun after => some (e :: after) := by
  rw [eventsIn?, List.filter_cons_of_pos (by simp [visible]), List.mapM_cons]
  rfl

theorem eventsIn?_of_isBlankLine (blank : Text.isBlankLine line = true) :
    eventsIn? (if line = [] then [] else [line]) = some [] := by
  split
  · rfl
  · rw [eventsIn?, List.filter_cons_of_neg (by simp [blank])]
    rfl

theorem readable_of_eventsIn? (h : eventsIn? [line] = some events) :
    Text.isBlankLine line = true ∨ (eventOf? line).isSome = true := by
  cases visible : Text.isBlankLine line with
  | true => exact .inl rfl
  | false =>
    rw [eventsIn?_cons visible] at h
    obtain ⟨e, found, -⟩ := Option.bind_eq_some_iff.1 h
    exact .inr (found ▸ rfl)

theorem eventsIn?_render (events : List Event) :
    eventsIn? (events.map (·.toJson.render)) = some events := by
  rw [← lines_lines]
  exact eventsOf?_lines events

/-! ## The line that the first event joins -/

theorem isBlankLine_of_all (blank : line.all Term.isBlank = true) :
    Text.isBlankLine line = true :=
  List.all_eq_true.2 fun c member =>
    Term.textIsBlank_of_isBlank (List.all_eq_true.1 blank c member)

theorem isBlankLine_append_render (line : List Char) (e : Event) :
    Text.isBlankLine (line ++ e.toJson.render) = false := by
  have visible : e.toJson.render.all Text.isBlank = false := isBlankLine_render e
  rw [Text.isBlankLine, List.all_append, visible, Bool.and_false]

theorem not_mem_render (e : Event) : '\n' ∉ e.toJson.render := fun feed =>
  absurd (le_toNat_of_mem_render feed) (by decide)

/-- An event that joins a line ends it. -/
theorem lines_append_lines (whole : '\n' ∉ line) (e : Event) (es : List Event) :
    Text.lines (line ++ (lines (e :: es)).toList) =
      (line ++ e.toJson.render) :: es.map (·.toJson.render) := by
  have whole' : '\n' ∉ line ++ e.toJson.render := by
    rw [List.mem_append, not_or]
    exact ⟨whole, not_mem_render e⟩
  have front : line ++ (lines (e :: es)).toList =
      (line ++ e.toJson.render) ++ '\n' :: (lines es).toList := by
    rw [lines, lines, String.toList_ofList, String.toList_ofList, List.flatMap_cons,
      FileSink.line, List.append_assoc, List.append_assoc]
    rfl
  have plain : (line ++ e.toJson.render).getLast? ≠ some '\r' := by
    obtain ⟨cs, written⟩ := exists_render_eq_cons e
    intro back
    rw [List.getLast?_append_of_ne_nil _ (by rw [written]; exact List.cons_ne_nil _ _)] at back
    exact absurd (le_toNat_of_mem_render (List.mem_of_getLast? back)) (by decide)
  rw [front, Text.lines_append whole', Text.dropReturn_of_getLast? plain, lines_lines]

/-- Blanks in front of an event do not change it. -/
theorem eventOf?_append_of_all (blank : line.all Term.isBlank = true) (e : Event) :
    eventOf? (line ++ e.toJson.render) = some e := by
  rw [eventOf?, Term.parseChars?_append_of_all blank (Term.parseChars?_render e.legible_toJson)]
  exact e.decode?_toJson

/-- An event behind another one, or behind a blank that the grammar does not know, makes a line that
says nothing. -/
theorem eventOf?_append_eq_none (other : ¬ line.all Term.isBlank = true)
    (readable : Text.isBlankLine line = true ∨ (eventOf? line).isSome = true) (e : Event) :
    eventOf? (line ++ e.toJson.render) = none := by
  obtain ⟨cs, written⟩ := exists_render_eq_cons e
  rw [eventOf?, Option.bind_eq_none_iff]
  suffices none : Term.parseChars? (line ++ e.toJson.render) = none by
    intro t parsed
    nomatch none.symm.trans parsed
  rcases readable with blank | event
  · cases front : Term.skipBlanks line with
    | nil => exact absurd (List.all_eq_true.2 (List.dropWhile_eq_nil_iff.1 front)) other
    | cons c tail =>
      have member : c ∈ line := (List.dropWhile_sublist _).subset (front ▸ List.mem_cons_self)
      have behind := Term.skipBlanks_append_cons front e.toJson.render
      exact Term.parseChars?_eq_none_of_isBlank behind (List.all_eq_true.1 blank c member)
  · obtain ⟨found, decoded⟩ := Option.isSome_iff_exists.1 event
    obtain ⟨t, parsed, -⟩ := Option.bind_eq_some_iff.1 decoded
    rw [written]
    exact Term.parseChars?_append_eq_none parsed (by decide) (by rintro _ ⟨⟩; decide)

/-! ## The whole text -/

/-- Behind a readable text the lines of events are read as these events if they start on a line of
their own, up to blanks of the grammar, and make it unreadable otherwise. -/
theorem eventsOf?_append_lines (readable : eventsOf? text = some events) (e : Event)
    (es : List Event) :
    eventsOf? (text ++ lines (e :: es)) =
      if (Text.lastLine text.toList).all Term.isBlank then some (events ++ e :: es) else none := by
  obtain ⟨above, cut⟩ := Text.exists_lines_append text.toList
  have whole := Text.not_mem_lastLine text.toList
  generalize Text.lastLine text.toList = last at cut whole
  have alone := cut []
  rw [List.append_nil, List.append_nil, Text.lines_of_not_mem whole] at alone
  rw [eventsOf?_eq, alone, eventsIn?_append] at readable
  obtain ⟨before, readAbove, readable⟩ := Option.bind_eq_some_iff.1 readable
  obtain ⟨after, readLast, same⟩ := Option.bind_eq_some_iff.1 readable
  cases same
  rw [eventsOf?_eq, String.toList_append, cut, lines_append_lines whole, eventsIn?_append,
    readAbove, Option.bind_some, eventsIn?_cons (isBlankLine_append_render last e),
    eventsIn?_render]
  split
  · next blank =>
    rw [eventsIn?_of_isBlankLine (isBlankLine_of_all blank)] at readLast
    cases readLast
    rw [eventOf?_append_of_all blank, List.append_nil]
    rfl
  · next other =>
    have some : last ≠ [] := by
      rintro rfl
      exact other rfl
    rw [if_neg some] at readLast
    rw [eventOf?_append_eq_none other (readable_of_eventsIn? readLast)]
    rfl

/-- A batch ends in a line feed, so the next one has lines of its own. -/
theorem lastLine_append_lines (text : String) (some : batch ≠ []) :
    Text.lastLine (text ++ lines batch).toList = [] := by
  have last : batch.flatMap line =
      (batch.dropLast.flatMap line ++ (batch.getLast some).toJson.render) ++ ['\n'] := by
    rw [List.append_assoc, ← line, ← List.flatMap_singleton line, ← List.flatMap_append,
      List.dropLast_append_getLast]
  rw [String.toList_append, lines, String.toList_ofList, last, ← List.append_assoc,
    Text.lastLine_append_singleton]

/-! ## What is read afterwards -/

theorem readAll_of_eventsOf? (there : s.files.read s.path = .text text)
    (read : eventsOf? text = some events) : s.readAll = .ok events := by
  rw [readAll, there]
  simp only [read]

theorem readAll_of_eventsOf?_eq_none (there : s.files.read s.path = .text text)
    (read : eventsOf? text = none) : s.readAll = .error .unreadable := by
  rw [readAll, there]
  simp only [read]

theorem eventsOf?_of_readAll (there : s.files.read s.path = .text text)
    (readable : s.readAll = .ok events) : eventsOf? text = some events := by
  cases read : eventsOf? text with
  | none => nomatch readable.symm.trans (readAll_of_eventsOf?_eq_none there read)
  | some found =>
    cases readable.symm.trans (readAll_of_eventsOf? there read)
    rfl

/-- Where a file is read as a text, a batch is accepted exactly if the append goes whole. -/
theorem emit_eq_ok_iff_of_read (there : s.files.read s.path = .text text) :
    (s.emit batch).2 = .ok () ↔ batch = [] ∨ s.files.nextAppend = .whole := by
  obtain ⟨path, found⟩ := FileArea.read_eq_text_iff.1 there
  rw [emit_eq_ok_iff, target?_of_follow (congrArg Spot.target? found), Option.isSome_some]
  simp only [true_and]

/-- The lines of an accepted batch are put behind the text of the file. -/
theorem read_emit (there : s.files.read s.path = .text text) (ok : (s.emit batch).2 = .ok ()) :
    (s.emit batch).1.files.read (s.emit batch).1.path = .text (text ++ lines batch) := by
  by_cases none : batch = []
  · rw [none, emit_nil, lines_nil, String.append_empty]
    exact there
  · obtain ⟨path, found⟩ := FileArea.read_eq_text_iff.1 there
    have emits := s.emits batch
    have written := emits.found found
    rw [part?_of_ok none ok] at written
    rw [FileArea.read_eq_text_iff, emits.path]
    exact ⟨path, written.trans (by rw [Text.Utf8.encode_append]; rfl)⟩

/-- The file is there and events are read from it, and a batch that is put behind them has lines of
its own, up to blanks of the grammar. -/
structure Appendable (s : FileSink) (text : String) (events : List Event) : Prop where
  there : s.files.read s.path = .text text
  read : eventsOf? text = some events
  blank : (Text.lastLine text.toList).all Term.isBlank = true

theorem Appendable.readAll (h : s.Appendable text events) : s.readAll = .ok events :=
  readAll_of_eventsOf? h.there h.read

theorem Appendable.emit (h : s.Appendable text events) (ok : (s.emit batch).2 = .ok ()) :
    (s.emit batch).1.Appendable (text ++ lines batch) (events ++ batch) := by
  have there := read_emit h.there ok
  cases batch with
  | nil =>
    rw [lines_nil, String.append_empty, List.append_nil]
    exact h
  | cons e es =>
    refine ⟨there, ?_, ?_⟩
    · rw [eventsOf?_append_lines h.read, if_pos h.blank]
    · rw [lastLine_append_lines text (List.cons_ne_nil e es)]
      rfl

/-- **A batch joins the last line.** A sink whose file is there and can be read accepts a batch
exactly if it has no events or its append goes whole. If an accepted batch has no events, or if after
the last line feed of the file there are only blanks of the grammar, what is read afterwards is the
events that were read before and then those of the batch; otherwise the file cannot be read
afterwards. -/
theorem readAll_emit (there : s.files.read s.path = .text text) (readable : s.readAll = .ok events)
    (batch : List Event) :
    ((s.emit batch).2 = .ok () ↔ batch = [] ∨ s.files.nextAppend = .whole) ∧
      ((s.emit batch).2 = .ok () → (s.emit batch).1.readAll =
        if batch = [] ∨ (Text.lastLine text.toList).all Term.isBlank then .ok (events ++ batch)
        else .error .unreadable) := by
  refine ⟨emit_eq_ok_iff_of_read there, fun ok => ?_⟩
  have read := eventsOf?_of_readAll there readable
  by_cases blank : (Text.lastLine text.toList).all Term.isBlank = true
  · rw [if_pos (.inr blank)]
    exact (Appendable.emit ⟨there, read, blank⟩ ok).readAll
  · cases batch with
    | nil =>
      rw [if_pos (.inl rfl), List.append_nil]
      exact readable
    | cons e es =>
      have damaged : eventsOf? (text ++ lines (e :: es)) = none := by
        rw [eventsOf?_append_lines read, if_neg blank]
      rw [if_neg (not_or.2 ⟨List.cons_ne_nil e es, blank⟩)]
      exact readAll_of_eventsOf?_eq_none (read_emit there ok) damaged

/-- The file at a path of one name, with a text. -/
theorem read_singleton (text : String) :
    (FileArea.empty.put ["e.log"] (.file (Text.Utf8.encode text))).read "e.log" = .text text := by
  have free : (FileArea.empty.follow "e.log").target? = some (["e.log"], []) := by decide +kernel
  exact FileArea.read_eq_text_iff.2 ⟨_, FileArea.follow_put free _⟩

/-- Behind a blank line and a tab an event comes back, and so does the next one. -/
theorem readAll_emit_blank :
    let e := statusUpdate "e1" "paid" ⟨⟨2024, 1, 1, by decide⟩, 32400, 0, by decide, by decide⟩
    let s : FileSink :=
      ⟨"e.log", FileArea.empty.put ["e.log"] (.file (Text.Utf8.encode "\u00a0\n\t"))⟩
    (s.emit [e]).1.readAll = .ok [e] ∧ ((s.emit [e]).1.emit [e]).1.readAll = .ok [e, e] := by
  intro e s
  have there : s.files.read s.path = .text "\u00a0\n\t" := read_singleton _
  have none : s.readAll = .ok [] := readAll_of_eventsOf? there (by decide +kernel)
  obtain ⟨accepts, reads⟩ := readAll_emit there none [e]
  have ok := accepts.2 (.inr rfl)
  have once : (s.emit [e]).1.readAll = .ok [e] :=
    (reads ok).trans (if_pos (.inr (by decide +kernel)))
  obtain ⟨accepts, reads⟩ := readAll_emit (read_emit there ok) once [e]
  refine ⟨once, (reads (accepts.2 (.inr (by decide +kernel)))).trans (if_pos (.inr ?_))⟩
  rw [lastLine_append_lines _ (List.cons_ne_nil e [])]
  rfl

/-- Behind an event whose line has no line feed the next one makes the file unreadable. -/
theorem emit_damages :
    let e := statusUpdate "e1" "paid" ⟨⟨2024, 1, 1, by decide⟩, 32400, 0, by decide, by decide⟩
    let s : FileSink :=
      ⟨"e.log", FileArea.empty.put ["e.log"] (.file (Text.Utf8.encode (String.ofList e.toJson.render)))⟩
    s.readAll = .ok [e] ∧ (s.emit [e]).2 = .ok () ∧
      (s.emit [e]).1.readAll = .error .unreadable := by
  intro e s
  have there : s.files.read s.path = .text (String.ofList e.toJson.render) := read_singleton _
  have read : eventsOf? (String.ofList e.toJson.render) = some [e] := by
    rw [eventsOf?_eq, String.toList_ofList, Text.lines_of_not_mem (not_mem_render e)]
    exact eventsIn?_render [e]
  have damaged : eventsOf? (String.ofList e.toJson.render ++ lines [e]) = none := by
    rw [eventsOf?_append_lines read, String.toList_ofList,
      Text.lastLine_of_not_mem (not_mem_render e)]
    rfl
  have ok : (s.emit [e]).2 = .ok () := (emit_eq_ok_iff_of_read there).2 (.inr rfl)
  exact ⟨readAll_of_eventsOf? there read, ok,
    readAll_of_eventsOf?_eq_none (read_emit there ok) damaged⟩

end ChangeAudit.FileSink
