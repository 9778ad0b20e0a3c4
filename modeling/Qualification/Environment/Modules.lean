import Qualification.Activity
/-!
# Environment modules

Modules are loaded and unloaded by a command, one module after the other up to the first that fails.
The command prints the changes of the environment that a module makes.

* `Modules.command?`, `Modules.run`.
-/

namespace Qualification.Modules

/-- What came of loading or unloading modules. -/
structure Outcome where
  status : Int
  stdout : String
  stderr : String
  changes : List EnvChange
  deriving DecidableEq

def Outcome.succeeded (o : Outcome) : Bool := o.status == 0

/-- Nothing done yet. -/
def Outcome.nothing : Outcome := ⟨0, "", "", []⟩

/-- What is done with modules. -/
inductive Action where
  | load | unload
  deriving DecidableEq

def Action.word : Action → String
  | load => "load"
  | unload => "unload"

/-- The words of the command for modules, unless there are none. -/
def command? (wrapper : Option String) : Option (List String) :=
  (wrapper.map Text.words).filter fun ws => !ws.isEmpty

/-- The command for one module. -/
def request (command : List String) (action : Action) (module : String) : Request :=
  (Request.ofWords? (command ++ [action.word, module])).getD
    ⟨action.word, [module], Dict.empty, none, none⟩

/-- The outcome after one more module has succeeded. -/
def Outcome.add (o : Outcome) (out : Output) : Outcome :=
  { o with
    stdout := o.stdout ++ out.stdout
    stderr := o.stderr ++ out.stderr
    changes := o.changes ++ EnvScript.changes out.stdout }

/-- The outcome after a module has failed. -/
def Outcome.failAt (o : Outcome) (action : Action) (module : String) (out : Output) : Outcome :=
  { o with
    status := out.status
    stdout := o.stdout ++ out.stdout
    stderr := o.stderr ++ out.stderr ++
      s!"Attempt to {action.word} environment module {module} failed" }

variable {σ : Type}

/-- Runs the command for each module, after an outcome of others. -/
def runFrom (executor : Executor σ) (command : List String) (action : Action) (o : Outcome) :
    List String → Act σ (Except Fault Outcome)
  | [] => return .ok o
  | m :: ms => do
    match ← Act.perform executor (request command action m) with
    | .error f => return .error f
    | .ok out =>
      if out.succeeded then runFrom executor command action (o.add out) ms
      else return .ok (o.failAt action m out)

/-- The modules of a list: trimmed, without blank ones. -/
def named (modules : List String) : List String :=
  (modules.map Text.trim).filter fun m => m != ""

/-- Loads or unloads modules. -/
def run (executor : Executor σ) (command : Option (List String)) (action : Action)
    (modules : List String) : Act σ (Except Fault Outcome) :=
  match command with
  | none => return .ok { Outcome.nothing with status := 1, stderr := "Module capability was not found" }
  | some command => runFrom executor command action .nothing (named modules)

end Qualification.Modules
