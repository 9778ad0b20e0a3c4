import Qualification.Command
/-!
# Rehearsed commands

In a rehearsal no command is run: cues say what comes of which command. Every request is noted.

* `Cue`: what comes of some commands;
* `Rehearsal`: the cues that are left, and what was noted;
* `Rehearsal.executor`.
-/

namespace Qualification

/-- What comes of the commands that a cue is for. -/
structure Cue where
  /-- The words of the one command that it is for. -/
  command : Option String
  /-- How the words of commands that it is for begin. -/
  start : Option String
  /-- For how many more commands it is. -/
  times : Option Nat
  after : Nat
  result : Except Fault Output

/-- The cues that are left, and what was noted. -/
structure Rehearsal where
  cues : List Cue
  requests : List Request
  calls : List String

namespace Cue

/-- Whether a cue is for a command. -/
def applies (c : Cue) (line : String) : Bool :=
  c.times != some 0 && c.command.all (· == line) && c.start.all (Text.startsWith line)

/-- A cue that was used once more. -/
def use (c : Cue) : Cue := { c with times := c.times.map (· - 1) }

/-- The first cue for a command, and the cues that are left. -/
def take? (line : String) : List Cue → Option (Cue × List Cue)
  | [] => none
  | c :: cs =>
    if c.applies line then some (c, c.use :: cs)
    else (take? line cs).map fun (found, rest) => (found, c :: rest)

end Cue

namespace Rehearsal

/-- A rehearsal at its beginning. -/
def start (cues : List Cue) : Rehearsal := ⟨cues, [], []⟩

/-- Notes a call. -/
def note (call : String) (r : Rehearsal) : Rehearsal := { r with calls := r.calls ++ [call] }

/-- Answers a command by its cue; one without a cue succeeds at once and echoes its words. -/
def executor : Executor Rehearsal := fun request r =>
  let r := { r with requests := r.requests ++ [request] }
  match Cue.take? request.display r.cues with
  | some (cue, cues) => (⟨cue.after, cue.result⟩, { r with cues })
  | none => (⟨0, .ok ⟨0, request.display, "", false⟩⟩, r)

end Rehearsal

end Qualification
