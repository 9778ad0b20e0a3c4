import Qualification.Environment.Modules
import Qualification.Manifest
/-!
# Plugins that run a command line

The words of a command line hold placeholders for option values. Modules named in the `modules`
option are loaded before the command and unloaded after it.

* `CommandLine.expand`, `CommandLine.plugin`, `CommandLine.factory`.
-/

namespace Qualification

/-- A command line with its description and options. -/
structure CommandLine where
  name : String
  description : String
  ordering : Int
  command : List String
  declared : OptionSpec
  timeout : Option Duration

namespace CommandLine

/-- The option that names modules. -/
def modulesOption : String := "modules"

/-- A word with the placeholders of some values filled in, one name after the other. -/
def fill (values : List (String × String)) (word : String) : String :=
  values.foldl (fun w e => Text.replaceAll ("\x7b" ++ e.1 ++ "\x7d") e.2 w) word

/-- The words of the command with all placeholders filled in: first those of declared options, then
those of keys that are passed through. -/
def expand (c : CommandLine) (r : Resolved) : List String :=
  c.command.map (fill (r.values.toList ++ r.passthrough.toList))

/-- The options: the declared ones and the one that names modules. -/
def options (c : CommandLine) : OptionSpec :=
  if c.declared.contains modulesOption then c.declared
  else c.declared.declare modulesOption "" "Environment modules to load around the command"

def display (c : CommandLine) : String :=
  if c.description.isEmpty then c.name else s!"{c.name} ({c.description})"

variable {σ : Type}

/-- Runs the command and writes what comes of it into the log. -/
def runCommand (c : CommandLine) (s : Services σ) (log : Log) (r : Resolved) :
    Act σ (Log × Except Fault Unit) := do
  match Request.ofWords? (c.expand r) with
  | none => return (log, .error (.ofText s!"'{c.name}' has an empty command"))
  | some request =>
    let env := (← Act.get).env
    let request := { request with env, cwd := s.scratchDir }
    let log := log.withExtra "command" request.display
    match ← Act.perform s.executor request with
    | .error fault => return (log, .error fault)
    | .ok out =>
      return ({ log with status := out.status, stdout := out.stdout, stderr := out.stderr }, .ok ())

/-- Makes the changes of modules. -/
def applyChanges (cs : List EnvChange) : Act σ Unit :=
  Act.modify fun w => { w with env := w.env.apply cs }

/-- Loads modules, runs the command and unloads them. What went wrong first decides. -/
def execute (c : CommandLine) (s : Services σ) (log : Log) (r : Resolved) :
    Act σ (Log × Except Fault Unit) := do
  let modules := r.list modulesOption
  if modules.isEmpty then c.runCommand s log r
  else
    match ← Modules.run s.executor s.moduleCommand .load modules with
    | .error fault => return (log, .error fault)
    | .ok loaded =>
      applyChanges loaded.changes
      if !loaded.succeeded then return (log.fail loaded.status loaded.stderr, .ok ())
      else
        let (log, result) ← c.runCommand s log r
        match ← Modules.run s.executor s.moduleCommand .unload modules with
        | .ok unloaded =>
          applyChanges unloaded.changes
          if !unloaded.succeeded && log.succeeded then
            return (log.fail unloaded.status unloaded.stderr, result)
          else return (log, result)
        | .error fault =>
          match result with
          | .error first => return (log, .error first)
          | .ok () => return (log, .error fault)

/-- The plugin of a command line. -/
def plugin (c : CommandLine) : Plugin σ where
  display := c.display
  options := c.options
  timeout := c.timeout
  ordering := c.ordering
  activation := fun _ => .ok ()
  engage := id
  execute := fun _ => c.execute
  release := fun _ w => w

/-- Builds a command line in any role; its command must have a word. -/
def factory : Factory σ := fun role key d =>
  if d.command.isEmpty then .error (.ofText s!"command plugin '{key}' has an empty command")
  else
    let c : CommandLine := ⟨key, d.description, d.ordering.getD 0, d.command, d.options,
      d.timeoutSeconds.map Duration.ofSeconds⟩
    .ok (role, c.plugin)

end CommandLine

end Qualification
