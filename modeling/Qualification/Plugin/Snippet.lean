import Qualification.Plugin
/-!
# The tool for shell snippets

Runs its `command` option as a script.
-/

namespace Qualification.Snippet

variable {σ : Type}

/-- Runs the script and writes what comes of it into the log. -/
def execute (s : Services σ) (log : Log) (r : Resolved) : Act σ (Log × Except Fault Unit) := do
  match r.nonempty? "command" with
  | none => return (log.fail 1 "No command given", .ok ())
  | some script =>
    let request := { Request.script script with env := (← Act.get).env, cwd := s.scratchDir }
    match ← Act.perform s.executor request with
    | .error fault => return (log, .error fault)
    | .ok out =>
      return ({ log with status := out.status, stdout := out.stdout, stderr := out.stderr }, .ok ())

/-- The tool. -/
def plugin : Plugin σ :=
  { Plugin.simple "Shell" fun _ => execute with
    options := OptionSpec.declare Dict.empty "command" "" "Shell command to run" }

end Qualification.Snippet
