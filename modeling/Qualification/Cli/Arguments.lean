import Qualification.Dict
import Qualification.Text.Cut
import Qualification.Word
/-!
# Arguments of the command line

* `Shape`: the options and operands that a command takes;
* `Shape.parse`: reads arguments by a shape;
* `Action`, `Action.parse`: what the program is asked to do.

Long options take a value after `=` or as the next argument, short ones also directly. Options may
stand among operands; after `--` everything is an operand.
-/

namespace Qualification.Cli

/-- What a value must be. -/
inductive ValueKind where
  | text
  /-- A text that is not empty. -/
  | path
  /-- A natural number of 64 bits. -/
  | number
  deriving DecidableEq

/-- An option. -/
structure OptionShape where
  long : String
  short : Option Char
  /-- The value that it takes; a flag takes none. -/
  value : Option ValueKind
  repeats : Bool

/-- The options and operands of a command. -/
structure Shape where
  options : List OptionShape
  operands : List ValueKind

/-- Why arguments are not carried out. -/
inductive Refusal where
  /-- They ask for help. -/
  | help
  | unknownArgument (argument : String)
  | missingValue (option : String)
  | unexpectedValue (option : String)
  | invalidValue (value : String)
  | repeated (option : String)
  | missingOperand
  | missingCommand
  deriving DecidableEq

/-- The options that were given, with their values, and the operands, in order. -/
structure Given where
  options : List (String × String)
  operands : List String

/-- A natural number, perhaps after a plus sign. -/
def number? (s : String) : Option Nat :=
  let ds := match s.toList with
    | '+' :: ds => ds
    | ds => ds
  if ds.isEmpty || !ds.all Char.isDigit then none
  else
    let n := ds.foldl (fun (n : Nat) d => n * 10 + (d.toNat - 48)) 0
    if n < Word.count64 then some n else none

/-- Whether a text is a value of a kind. -/
def ValueKind.accepts : ValueKind → String → Bool
  | .text, _ => true
  | .path, s => s != ""
  | .number, s => (number? s).isSome

/-- Whether an argument looks like an option. -/
def looksLikeOption (a : String) : Bool :=
  match a.toList with
  | '-' :: _ :: _ => true
  | _ => false

namespace Shape

/-- One more option. -/
def addOption (g : Given) (o : OptionShape) (value : String) : Except Refusal Given :=
  if !o.repeats && g.options.any fun e => e.1 == o.long then .error (.repeated o.long)
  else
    match o.value with
    | some kind =>
      if kind.accepts value then .ok { g with options := g.options ++ [(o.long, value)] }
      else .error (.invalidValue value)
    | none => .ok { g with options := g.options ++ [(o.long, value)] }

/-- One more operand. -/
def addOperand (shape : Shape) (g : Given) (value : String) : Except Refusal Given :=
  match shape.operands[g.operands.length]? with
  | none => .error (.unknownArgument value)
  | some kind =>
    if kind.accepts value then .ok { g with operands := g.operands ++ [value] }
    else .error (.invalidValue value)

/-- A long option and the arguments after it. -/
def long (shape : Shape) (g : Given) (name : String) (value : Option String) (rest : List String) :
    Except Refusal (Given × List String) :=
  if name = "help" && value.isNone then .error .help
  else
    match shape.options.find? fun o => o.long == name with
    | none => .error (.unknownArgument ("--" ++ name))
    | some o =>
      match o.value, value with
      | none, none => (addOption g o "").map (·, rest)
      | none, some _ => .error (.unexpectedValue name)
      | some _, some v => (addOption g o v).map (·, rest)
      | some _, none =>
        match rest with
        | v :: rest =>
          if looksLikeOption v then .error (.missingValue name)
          else (addOption g o v).map (·, rest)
        | [] => .error (.missingValue name)

/-- Short options in one argument, and the arguments after it. -/
def short (shape : Shape) (g : Given) : List Char → List String → Except Refusal (Given × List String)
  | [], rest => .ok (g, rest)
  | c :: cs, rest =>
    if c = 'h' then .error .help
    else
      match shape.options.find? fun o => o.short == some c with
      | none => .error (.unknownArgument (String.ofList ['-', c]))
      | some o =>
        match o.value with
        | none => do short shape (← addOption g o "") cs rest
        | some _ =>
          match cs, rest with
          | '=' :: v, rest => (addOption g o (String.ofList v)).map (·, rest)
          | [], v :: rest =>
            if looksLikeOption v then .error (.missingValue o.long)
            else (addOption g o v).map (·, rest)
          | [], [] => .error (.missingValue o.long)
          | v, rest => (addOption g o (String.ofList v)).map (·, rest)

/-- Reads arguments; each step takes at least one. -/
def parseFrom (shape : Shape) : (fuel : Nat) → Given → List String → Except Refusal Given
  | 0, g, _ => .ok g
  | _, g, [] => .ok g
  | fuel + 1, g, a :: rest => do
    match a.toList with
    | ['-', '-'] => rest.foldlM (addOperand shape) g
    | '-' :: '-' :: cs =>
      let (name, value) := match Text.cutAt? (· == '=') cs with
        | some (name, value) => (String.ofList name, some (String.ofList value))
        | none => (String.ofList cs, none)
      let (g, rest) ← shape.long g name value rest
      shape.parseFrom fuel g rest
    | '-' :: c :: cs =>
      let (g, rest) ← shape.short g (c :: cs) rest
      shape.parseFrom fuel g rest
    | _ => shape.parseFrom fuel (← shape.addOperand g a) rest

/-- Reads arguments; all operands must be there. -/
def parse (shape : Shape) (args : List String) : Except Refusal Given := do
  let g ← shape.parseFrom args.length ⟨[], []⟩ args
  if g.operands.length < shape.operands.length then .error .missingOperand else .ok g

end Shape

namespace Given

def flag (g : Given) (name : String) : Bool := g.options.any fun e => e.1 == name

def values (g : Given) (name : String) : List String :=
  (g.options.filter fun e => e.1 == name).map Prod.snd

end Given

/-- What a run is asked for. -/
structure RunRequest where
  definition : String
  pluginDirs : List String
  continueOnFailure : Bool
  json : Bool
  noJournal : Bool
  dryRun : Bool
  scratchDir : Option String

/-- What the program is asked to do. -/
inductive Action where
  | run (r : RunRequest)
  | plugins (pluginDirs : List String)
  | status (runId : String)
  | runs (limit : Nat)
  | config
  | version

/-- The variable that names the directory for commands. -/
def scratchVariable : String := "QUALRUN_SCRATCH_DIR"

/-- A flag. -/
def flagShape (long : String) : OptionShape := ⟨long, none, none, false⟩

def pluginDirShape : OptionShape := ⟨"plugin-dir", none, some .path, true⟩

namespace Action

/-- Reads the arguments of a run; variables can name the directory for commands. -/
def parseRun (args : List String) (env : Dict String) : Except Refusal Action := do
  let shape : Shape := ⟨[pluginDirShape, flagShape "continue-on-failure", flagShape "json",
    flagShape "no-journal", flagShape "dry-run", ⟨"scratch-dir", none, some .path, false⟩], [.path]⟩
  let g ← shape.parse args
  let fromVariable := if (g.values "scratch-dir").isEmpty then env.get? scratchVariable else none
  if fromVariable == some "" then .error (.invalidValue "")
  else
    .ok (.run {
      definition := g.operands.headD ""
      pluginDirs := g.values "plugin-dir"
      continueOnFailure := g.flag "continue-on-failure"
      json := g.flag "json"
      noJournal := g.flag "no-journal"
      dryRun := g.flag "dry-run"
      scratchDir := (g.values "scratch-dir").head?.or fromVariable })

/-- Reads the arguments of the program. -/
def parse (args : List String) (env : Dict String) : Except Refusal Action :=
  match args with
  | [] => .error .missingCommand
  | "run" :: rest => parseRun rest env
  | "plugins" :: rest => do
    .ok (.plugins ((← (⟨[pluginDirShape], []⟩ : Shape).parse rest).values "plugin-dir"))
  | "status" :: rest => do
    .ok (.status ((← (⟨[], [.text]⟩ : Shape).parse rest).operands.headD ""))
  | "runs" :: rest => do
    let g ← (⟨[⟨"limit", some 'l', some .number, false⟩], []⟩ : Shape).parse rest
    .ok (.runs (((g.values "limit").head?.bind number?).getD 10))
  | "config" :: rest => do
    let _ ← (⟨[], []⟩ : Shape).parse rest
    .ok .config
  | "help" :: _ => .error .help
  | a :: _ =>
    match a.toList with
    | '-' :: 'V' :: _ => .ok .version
    | '-' :: 'h' :: _ => .error .help
    | _ =>
      if a = "--version" then .ok .version
      else if a = "--help" then .error .help
      else .error (.unknownArgument a)

end Action

end Qualification.Cli
