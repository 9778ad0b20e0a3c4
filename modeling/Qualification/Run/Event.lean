import Qualification.Log
import Qualification.Uuid
/-!
# Events of a run

A run writes an event for each of its steps. Events are records with a text form in JSON.
-/

namespace Qualification

/-- What an event tells. -/
inductive EventKind where
  | runStarted | runCompleted | runAborted | stageStarted | stageCompleted | stageFailed
  deriving DecidableEq, Repr, Inhabited

namespace EventKind

def all : List EventKind :=
  [runStarted, runCompleted, runAborted, stageStarted, stageCompleted, stageFailed]

def label : EventKind → String
  | runStarted => "run_started"
  | runCompleted => "run_completed"
  | runAborted => "run_aborted"
  | stageStarted => "stage_started"
  | stageCompleted => "stage_completed"
  | stageFailed => "stage_failed"

def ofLabel? (s : String) : Option EventKind := all.find? fun k => k.label == s

/-- Reads a kind: its label, or an object that holds null under it. -/
def ofJson? : Json → Option EventKind
  | .text s => ofLabel? s
  | .object [(s, .null)] => ofLabel? s
  | _ => none

end EventKind

/-- An event of a run. -/
structure Event where
  id : Uuid
  timestamp : Instant
  runId : Uuid
  stage : Option String
  stageIndex : Option Nat
  kind : EventKind
  summary : String
  log : Option Log
  definitionHash : Option String
  deriving DecidableEq

namespace Json

def ofUuid (u : Uuid) : Json := text u.render

def asUuid? (j : Json) : Option Uuid := j.asText?.bind Uuid.parse?

end Json

namespace Event

/-- Writes an event; a digest that is absent is left out. -/
def toJson (e : Event) : Json := .object ([
  ("id", .ofUuid e.id), ("timestamp", .ofInstant e.timestamp), ("run_id", .ofUuid e.runId),
  ("stage", .ofOption .text e.stage), ("stage_index", .ofOption .ofNat e.stageIndex),
  ("event_type", .text e.kind.label), ("summary", .text e.summary),
  ("log", .ofOption Log.toJson e.log)] ++
  match e.definitionHash with
  | some h => [("definition_hash", .text h)]
  | none => [])

/-- Reads an event. -/
def ofJson? (j : Json) : Option Event := do
  let r ← j.record? ["id", "timestamp", "run_id", "stage", "stage_index", "event_type", "summary",
    "log", "definition_hash"]
  pure {
    id := ← r.required "id" Json.asUuid?
    timestamp := ← r.required "timestamp" Json.asInstant?
    runId := ← r.required "run_id" Json.asUuid?
    stage := ← r.optional "stage" Json.asText?
    stageIndex := ← r.optional "stage_index" Json.asNat?
    kind := ← r.required "event_type" EventKind.ofJson?
    summary := ← r.required "summary" Json.asText?
    log := ← r.optional "log" Log.ofJson?
    definitionHash := ← r.withDefault "definition_hash" none (Json.asOption? Json.asText?) }

end Event

end Qualification
