import Qualification.Run.Event
import Qualification.Run.State
/-!
# Runs rebuilt from their events

* `RunRecord.ofEvents?` applies the events of a run one after the other to the record that its first
  event begins.
-/

namespace Qualification

/-- A run as its events tell it. -/
structure RunRecord where
  id : Uuid
  name : String
  state : RunState
  startedAt : Instant
  completedAt : Option Instant
  logs : List Log

namespace RunRecord

/-- The record before the first event. -/
def begin (e : Event) : RunRecord := ⟨e.runId, "", .notStarted, e.timestamp, none, []⟩

/-- A final state, with the time at which it was first reached. -/
def finish (r : RunRecord) (state : RunState) (at_ : Instant) : RunRecord :=
  if r.state.isTerminal then r else { r with state, completedAt := some at_ }

/-- The record after an event. -/
def apply (r : RunRecord) (e : Event) : RunRecord :=
  match e.kind with
  | .runStarted => { r with name := e.summary, startedAt := e.timestamp }
  | .stageStarted =>
    match e.stageIndex with
    | some i => { r with state := r.state.advance (.running i) }
    | none => r
  | .stageCompleted | .stageFailed =>
    match e.log with
    | some log => { r with logs := r.logs ++ [log] }
    | none => r
  | .runCompleted => r.finish .completed e.timestamp
  | .runAborted =>
    r.finish (.abortedAt (e.stageIndex.getD 0) (e.stage.getD "")) e.timestamp

/-- The record of a list of events. -/
def ofEvents? : List Event → Option RunRecord
  | [] => none
  | e :: es => some ((e :: es).foldl apply (begin e))

def isRunning (r : RunRecord) : Bool := !r.state.isTerminal

/-- The first log that tells a failure. -/
def firstFailure? (r : RunRecord) : Option Log := r.logs.find? fun l => !l.succeeded

/-- Writes a record. -/
def toJson (r : RunRecord) : Json := .object [
  ("id", .ofUuid r.id), ("name", .text r.name), ("state", r.state.toJson),
  ("started_at", .ofInstant r.startedAt),
  ("completed_at", .ofOption .ofInstant r.completedAt),
  ("logs", .array (r.logs.map Log.toJson))]

end RunRecord

end Qualification
