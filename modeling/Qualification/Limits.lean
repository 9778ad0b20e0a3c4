import Qualification.Duration
import Qualification.Json.Basic
import Qualification.Yaml.Record
/-!
# Time limits

A run has two limits, each in seconds and each perhaps absent: one for every stage, and one for the
whole run, which is checked before a section is visited.
-/

namespace Qualification

/-- The limits of a run. -/
structure Limits where
  stageSeconds : Option Nat
  runSeconds : Option Nat
  deriving DecidableEq, Inhabited

/-- How a limit was exceeded. -/
inductive LimitViolation where
  | stageTimeout (stage : String) (limit : Duration)
  | runTimeout (elapsedSeconds limitSeconds : Nat)
  deriving DecidableEq

/-- The text of a violation. -/
def LimitViolation.message : LimitViolation → String
  | stageTimeout stage limit => s!"Stage '{stage}' timed out after {limit.render}"
  | runTimeout elapsed limit => s!"Run timeout: {elapsed}s >= {limit}s"

namespace Limits

/-- No limits. -/
def unlimited : Limits := ⟨none, none⟩

/-- The limit of a stage: its own, or that of the run. -/
def stageTimeout (l : Limits) (own : Option Duration) : Option Duration :=
  own.or (l.stageSeconds.map Duration.ofSeconds)

/-- The violation of the run's limit after some seconds, if there is one. -/
def check (l : Limits) (elapsedSeconds : Nat) : Option LimitViolation :=
  match l.runSeconds with
  | some limit => if limit ≤ elapsedSeconds then some (.runTimeout elapsedSeconds limit) else none
  | none => none

/-- The limits, with absent ones taken from others. -/
def orElse (l fallback : Limits) : Limits :=
  ⟨l.stageSeconds.or fallback.stageSeconds, l.runSeconds.or fallback.runSeconds⟩

def fieldNames : List String := ["stage_timeout_seconds", "run_timeout_seconds"]

/-- Reads limits from JSON. -/
def ofJson? (j : Json) : Option Limits := do
  let r ← j.record? fieldNames
  let stage ← r.withDefault "stage_timeout_seconds" none (Json.asOption? Json.asNat?)
  let run ← r.withDefault "run_timeout_seconds" none (Json.asOption? Json.asNat?)
  pure ⟨stage, run⟩

/-- Reads limits from YAML. -/
def ofYaml? (d : Yaml.Document) (n : Yaml.Node) : Option Limits := do
  let r ← d.record? fieldNames n
  let stage ← r.withDefault "stage_timeout_seconds" none (d.optional? d.nat?)
  let run ← r.withDefault "run_timeout_seconds" none (d.optional? d.nat?)
  pure ⟨stage, run⟩

end Limits

/-- The progress of a run, as far as its limits care. -/
structure Tracker where
  /-- When the run began, in milliseconds. -/
  began : Nat
  /-- How many stages were invoked. -/
  stages : Nat
  deriving DecidableEq, Inhabited

namespace Tracker

/-- A run that begins. -/
def start (now : Nat) : Tracker := ⟨now, 0⟩

/-- Whole seconds since the beginning. -/
def elapsedSeconds (t : Tracker) (now : Nat) : Nat := (now - t.began) / 1000

/-- One more stage was invoked. -/
def recordStage (t : Tracker) : Tracker := { t with stages := t.stages + 1 }

end Tracker

end Qualification
