import ChangeAudit.FileArea
import ChangeAudit.Json.Printer
import ChangeAudit.Sink

/-!
# Events in a file

A `FileSink` appends the document of each event as one line. The directories above the file are
created before; the ones that could be stay also when the batch is not accepted, and so do the bytes
that were written when writing or flushing failed. An empty batch touches nothing. `readAll` gives
back the events of all lines that are not blank; a file that does not exist has none.
-/

namespace ChangeAudit

/-- A file of events and the files around it. -/
structure FileSink where
  path : String
  files : FileArea

namespace FileSink

/-- The line of an event, with its line feed. -/
def line (e : Event) : List Char := e.toJson.render ++ ['\n']

/-- The lines of a batch. -/
def lines (batch : List Event) : String := String.ofList (batch.flatMap line)

/-- The bytes of a batch. -/
def bytes (batch : List Event) : List UInt8 := Text.Utf8.encode (lines batch)

/-- What is answered after an append to a path. -/
def answerTo (path : String) : Appending → Except SinkFault Unit
  | .whole => .ok ()
  | .unopened => .error (.openFile path)
  | .unwritten _ => .error (.write path)
  | .unflushed _ => .error (.flush path)

/-- Appends a batch. -/
def emit (s : FileSink) (batch : List Event) : FileSink × Except SinkFault Unit :=
  if batch = [] then (s, .ok ())
  else
    match s.files.createAbove s.path with
    | (files, false) =>
      ({ s with files := files }, .error (.createDirectory ((parentOf? s.path).getD "")))
    | (files, true) =>
      let (files, how) := files.append s.path (bytes batch)
      ({ s with files := files }, answerTo s.path how)

/-- The event that a line writes. -/
def eventOf? (line : List Char) : Option Event := (Term.parseChars? line).bind Event.decode?

/-- The events that a text writes. -/
def eventsOf? (text : String) : Option (List Event) :=
  ((Text.lines text.toList).filter fun l => !Text.isBlankLine l).mapM eventOf?

/-- Reads the events back. -/
def readAll (s : FileSink) : Except Fault (List Event) :=
  match s.files.read s.path with
  | .missing => .ok []
  | .refused => .error (.sink (.read s.path))
  | .text t =>
    match eventsOf? t with
    | some events => .ok events
    | none => .error .unreadable

instance : EventSink FileSink where
  name _ := "file"
  emit s batch :=
    let (s, answer) := s.emit batch
    (s, answer.mapError .sink)

end FileSink

end ChangeAudit
