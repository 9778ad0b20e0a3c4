import Qualification.FileTree
import Qualification.Json.Printer
import Qualification.Json.Reader
import Qualification.Run.Record
/-!
# Journals

The journal of a run is a file with one event on each line, in a directory that is named for the run.
Events are only ever added at its end.

* `Journal.lineOf`, `Journal.eventsOf`: an event as a line, and the events of a file;
* `Journal.openIn`, `append`, `replay`, `record`, `Journal.listRuns`.
-/

namespace Qualification

/-- Why a journal could not be used. -/
inductive JournalError where
  /-- The directory of the run could not be made. -/
  | noDirectory (path : String)
  /-- The file of events could not be opened. -/
  | notOpened (path : String)
  /-- A line is no event. -/
  | noEvent (line : String)
  /-- A line is no text. -/
  | noText
  /-- The file of events is a directory. -/
  | isDirectory
  /-- What should hold the directories of runs is a file. -/
  | notDirectory
  deriving DecidableEq

/-- The text of an error. -/
def JournalError.message : JournalError → String
  | noDirectory path => s!"Failed to create run directory: {path}"
  | notOpened path => s!"Failed to open events file: {path}"
  | noEvent line => s!"Failed to parse event: {line}"
  | noText => "stream did not contain valid UTF-8"
  | isDirectory => "Is a directory (os error 21)"
  | notDirectory => "Not a directory (os error 20)"

/-- A journal: the directory of its run. -/
structure Journal where
  path : String
  place : Place
  deriving DecidableEq

namespace Journal

/-- The name of the file of events. -/
def fileName : String := "events.jsonl"

def eventsPath (j : Journal) : String := Path.join j.path fileName

def eventsPlace (j : Journal) : Place := j.place ++ [fileName]

/-! ## Lines -/

/-- An event as a line. -/
def lineOf (e : Event) : String := e.toJson.compact ++ "\n"

/-- Reads the event of a line; a blank line has none. -/
def eventOf? (line : List UInt8) : Except JournalError (Option Event) :=
  match Text.decode? ⟨line.toArray⟩ with
  | none => .error .noText
  | some text =>
    if Text.isBlankText text then .ok none
    else
      match (Json.parse? text).bind Event.ofJson? with
      | some e => .ok (some e)
      | none => .error (.noEvent text)

/-- The events of some lines, in order. -/
def eventsOfLines : List (List UInt8) → Except JournalError (List Event)
  | [] => .ok []
  | line :: lines => do
    let event ← eventOf? line
    let events ← eventsOfLines lines
    .ok (event.toList ++ events)

/-- The events of a file. -/
def eventsOf (bytes : ByteArray) : Except JournalError (List Event) :=
  eventsOfLines (Text.linesAt 10 13 bytes.data.toList)

/-! ## Files -/

/-- Opens the journal of a run below a base directory, and makes its directory. -/
def openIn (files : FileTree) (cwd : Place) (base : String) (runId : Uuid) :
    Except JournalError (Journal × FileTree) :=
  let path := Path.join base runId.render
  match files.makeDirs? cwd path with
  | none => .error (.noDirectory path)
  | some files =>
    match files.resolve? cwd path with
    | none => .error (.noDirectory path)
    | some place => .ok (⟨path, place⟩, files)

/-- Adds an event at the end. -/
def append (j : Journal) (e : Event) (files : FileTree) : Except JournalError FileTree :=
  match files.append? j.eventsPlace (Text.encode (lineOf e)) with
  | some files => .ok files
  | none => .error (.notOpened j.eventsPath)

/-- The recorder of a journal: an event that cannot be added is lost. -/
def recorder (j : Journal) (e : Event) (files : FileTree) : FileTree :=
  match j.append e files with
  | .ok files => files
  | .error _ => files

/-- Reads all events; there are none where there is no file. -/
def replay (j : Journal) (files : FileTree) : Except JournalError (List Event) :=
  match files.entry? j.eventsPlace with
  | none => .ok []
  | some .directory => .error .isDirectory
  | some (.file bytes) => eventsOf bytes

/-- The record of the run. -/
def record (j : Journal) (files : FileTree) : Except JournalError (Option RunRecord) :=
  (j.replay files).map RunRecord.ofEvents?

/-- The runs that have a directory below a base directory. -/
def listRuns (files : FileTree) (cwd : Place) (base : String) : Except JournalError (List Uuid) :=
  match files.resolve? cwd base with
  | none => .ok []
  | some place =>
    if files.isFile place then .error .notDirectory
    else
      .ok (((files.children place).filter fun n => files.isDirectory (place ++ [n])).filterMap
        Uuid.parse?)

end Journal

end Qualification
