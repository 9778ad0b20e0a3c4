import Qualification.Dict
import Qualification.Duration
import Qualification.Fault
/-!
# Commands

A command is a program with arguments, variables and a working directory. What runs it answers at
once with the output and with the time after which the output is there.
-/

namespace Qualification

/-- A command to run. -/
structure Request where
  program : String
  args : List String
  /-- Variables on top of the inherited ones. -/
  env : Dict String
  cwd : Option String
  timeout : Option Duration
  deriving DecidableEq

namespace Request

/-- The command of a list of words, unless it is empty. -/
def ofWords? : List String → Option Request
  | [] => none
  | program :: args => some ⟨program, args, Dict.empty, none, none⟩

/-- The command that runs a script. -/
def script (text : String) : Request := ⟨"sh", ["-c", text], Dict.empty, none, none⟩

/-- The words of a command with blanks between them. -/
def display (r : Request) : String := Text.joinWith " " (r.program :: r.args)

end Request

/-- The output of a finished command. -/
structure Output where
  status : Int
  stdout : String
  stderr : String
  timedOut : Bool
  deriving DecidableEq, Inhabited

def Output.succeeded (o : Output) : Bool := o.status == 0

/-- What comes of a command, and after how many milliseconds. -/
structure Response where
  after : Nat
  result : Except Fault Output

/-- What runs commands, with a state of its own. -/
def Executor (σ : Type) : Type := Request → σ → Response × σ

namespace Executor

variable {σ τ : Type}

/-- An executor that works on the first one of two states. -/
def onFirst (x : Executor σ) : Executor (σ × τ) := fun request s =>
  let (response, first) := x request s.1
  (response, (first, s.2))

/-- An executor that works on the second one of two states. -/
def onSecond (x : Executor τ) : Executor (σ × τ) := fun request s =>
  let (response, second) := x request s.2
  (response, (s.1, second))

end Executor

end Qualification
