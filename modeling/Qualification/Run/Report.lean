import Qualification.Run.State
import Qualification.Text.Cut
import Qualification.Log
import Qualification.Uuid
/-!
# Reports of runs

A report tells what came of a run: its final state and the logs of the visited sections.

* `RunReport.exitCode`: the first failure's status, if a process can end with it;
* `RunReport.table`, `RunReport.toJson`: a report for people and for programs.
-/

namespace Qualification

/-- What came of a run. -/
structure RunReport where
  runId : Uuid
  name : String
  state : RunState
  logs : List Log
  deriving DecidableEq

namespace RunReport

/-- The first log that tells a failure. -/
def firstFailure? (r : RunReport) : Option Log := r.logs.find? fun l => !l.succeeded

def succeeded (r : RunReport) : Bool := r.firstFailure?.isNone

/-- The status of a process: 0 for success, the status of the first failure if it is one from 1 to
255, and else 1. -/
def exitCode (r : RunReport) : Int :=
  match r.firstFailure? with
  | none => 0
  | some log => if 1 ≤ log.status ∧ log.status ≤ 255 then log.status else 1

/-- A row of the table. -/
def row (number title status time : String) : String :=
  Text.padRight 4 number ++ " " ++ Text.padRight 24 title ++ " " ++ Text.padRight 14 status ++ " " ++
    Text.padLeft 10 time ++ "\n"

/-- A time in the table. -/
def timeText : Option Nat → String
  | some ms => s!"{ms}ms"
  | none => "-"

/-- The row of a log. -/
def logRow (number : Nat) (l : Log) : String :=
  row (toString number) l.section_ (describeStatus l.status) (timeText l.durationMs)

/-- The paragraph about a failure, with the lines that explain it. -/
def failureText (l : Log) : String :=
  let label := if l.isDistinguished then ", " ++ describeStatus l.status else ""
  let lines := (Text.lines (Text.trim l.stderr)).map fun line => "  " ++ line ++ "\n"
  s!"\nFirst failure: {l.section_} (status {l.status}{label})\n" ++ String.join lines

/-- The table of a report. -/
def table (r : RunReport) : String :=
  s!"Run:    {r.name} ({r.runId.render})\nState:  {r.state.describe}\n\n" ++
    row "#" "SECTION" "STATUS" "TIME" ++ String.ofList (List.replicate 55 '-') ++ "\n" ++
    String.join (r.logs.zipIdx.map fun e => logRow e.2 e.1) ++
    (match r.firstFailure? with
      | some l => failureText l
      | none => "")

/-- A report as JSON. -/
def toJson (r : RunReport) : Json := .object [
  ("run_id", .text r.runId.render), ("name", .text r.name), ("state", r.state.toJson),
  ("logs", .array (r.logs.map Log.toJson))]

end RunReport

end Qualification
