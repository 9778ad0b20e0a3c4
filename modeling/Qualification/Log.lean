import Qualification.Dict
import Qualification.Json.Basic
import Qualification.Time
/-!
# Logs of invocations

Every invocation of a plugin leaves one log: its status, its output, and what else is known of it.
Status 0 is success; three negative statuses are given by the run and not by the plugin.
-/

namespace Qualification

/-- The plugin panicked or returned an error. -/
def faultStatus : Int := -1

/-- A time limit was exceeded. -/
def timeoutStatus : Int := -2

/-- The plugin was not invoked, because what it depends on did not run. -/
def skippedStatus : Int := -3

/-- A status in words. -/
def describeStatus (status : Int) : String :=
  if status = 0 then "ok"
  else if status = faultStatus then "fault"
  else if status = timeoutStatus then "timeout"
  else if status = skippedStatus then "skipped"
  else s!"failed ({status})"

/-- The log of one invocation. -/
structure Log where
  stage : String
  /-- The title of the section that the options came from. -/
  section_ : String
  status : Int
  stdout : String
  stderr : String
  extra : Dict String
  startedAt : Option Instant
  finishedAt : Option Instant
  durationMs : Option Nat
  deriving DecidableEq, Inhabited

namespace Log

/-- A fresh log. -/
def new (stage title : String) : Log := ⟨stage, title, 0, "", "", Dict.empty, none, none, none⟩

def succeeded (l : Log) : Bool := l.status == 0

/-- Whether the status was given by the run. -/
def isDistinguished (l : Log) : Bool :=
  l.status == faultStatus || l.status == timeoutStatus || l.status == skippedStatus

/-- The log as failed, with a status and an explanation. -/
def fail (l : Log) (status : Int) (stderr : String) : Log := { l with status, stderr }

/-- The log with something more known. -/
def withExtra (l : Log) (key value : String) : Log := { l with extra := l.extra.insert key value }

end Log

namespace Json

/-- Something that may be absent, as `null`. -/
def ofOption {α : Type} (f : α → Json) : Option α → Json
  | none => null
  | some a => f a

def ofNat (n : Nat) : Json := int n

def ofInstant (t : Instant) : Json := text t.render

/-- Texts by key. -/
def ofDict (d : Dict String) : Json := object (d.toList.map fun e => (e.1, text e.2))

/-- Reads texts by key; of two with one key the last one counts. -/
def asDict? (j : Json) : Option (Dict String) := do
  let fields ← j.asObject?
  let es ← fields.mapM fun f => f.2.asText?.map (f.1, ·)
  pure (Dict.ofList es)

def asInstant? (j : Json) : Option Instant := j.asText?.bind Instant.parse?

end Json

namespace Log

/-- Writes a log. -/
def toJson (l : Log) : Json := .object [
  ("stage", .text l.stage), ("section", .text l.section_), ("status", .int l.status),
  ("stdout", .text l.stdout), ("stderr", .text l.stderr), ("extra", .ofDict l.extra),
  ("started_at", .ofOption .ofInstant l.startedAt),
  ("finished_at", .ofOption .ofInstant l.finishedAt),
  ("duration_ms", .ofOption .ofNat l.durationMs)]

/-- Reads a log. -/
def ofJson? (j : Json) : Option Log := do
  let r ← j.record? ["stage", "section", "status", "stdout", "stderr", "extra", "started_at",
    "finished_at", "duration_ms"]
  pure {
    stage := ← r.required "stage" Json.asText?
    section_ := ← r.required "section" Json.asText?
    status := ← r.required "status" Json.asInt32?
    stdout := ← r.withDefault "stdout" "" Json.asText?
    stderr := ← r.withDefault "stderr" "" Json.asText?
    extra := ← r.withDefault "extra" Dict.empty Json.asDict?
    startedAt := ← r.optional "started_at" Json.asInstant?
    finishedAt := ← r.optional "finished_at" Json.asInstant?
    durationMs := ← r.optional "duration_ms" Json.asNat? }

end Log

end Qualification
