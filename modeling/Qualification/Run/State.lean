import Qualification.Json.Basic
/-!
# States of a run

A run has not started, is running, is completed, or was aborted at a stage. The last two are final.
-/

namespace Qualification

/-- The state of a run. -/
inductive RunState where
  | notStarted
  | running (stageIndex : Nat)
  | completed
  | abortedAt (stageIndex : Nat) (stage : String)
  deriving DecidableEq, Inhabited

namespace RunState

/-- Whether the state is final. -/
def isTerminal : RunState → Bool
  | completed => true
  | abortedAt _ _ => true
  | _ => false

/-- The next state; a final state stays. -/
def advance (s next : RunState) : RunState := if s.isTerminal then s else next

/-- A state in words. -/
def describe : RunState → String
  | notStarted => "not started"
  | running i => s!"running (stage {i})"
  | completed => "completed"
  | abortedAt i stage => s!"aborted at stage {i} ({stage})"

/-- Writes a state: its kind first. -/
def toJson : RunState → Json
  | notStarted => .object [("status", .text "not_started")]
  | running i => .object [("status", .text "running"), ("stage_index", .int i)]
  | completed => .object [("status", .text "completed")]
  | abortedAt i stage =>
    .object [("status", .text "aborted_at"), ("stage_index", .int i), ("stage", .text stage)]

/-- The state of a kind, with the rest of its object or array. -/
def ofKind? (kind : String) (content : Json) : Option RunState :=
  let bare := match content with
    | .array items => items.isEmpty
    | _ => true
  if kind == "not_started" then (if bare then some notStarted else none)
  else if kind == "completed" then (if bare then some completed else none)
  else if kind == "running" then do
    let r ← content.record? ["stage_index"]
    pure (running (← r.required "stage_index" Json.asNat?))
  else if kind == "aborted_at" then do
    let r ← content.record? ["stage_index", "stage"]
    pure (abortedAt (← r.required "stage_index" Json.asNat?) (← r.required "stage" Json.asText?))
  else none

/-- Reads a state: an object with its kind, or an array that begins with it. -/
def ofJson? : Json → Option RunState
  | .object fields => do
    match fields.filter fun f => f.1 == "status" with
    | [(_, .text kind)] => ofKind? kind (.object (fields.filter fun f => f.1 != "status"))
    | _ => none
  | .array (.text kind :: rest) => ofKind? kind (.array rest)
  | _ => none

end RunState

end Qualification
