import Qualification.Dict
import Qualification.FileTree
/-!
# Sessions of the shell

What a running script sees and changes: files, variables, its streams, and the time that has passed.
-/

namespace Qualification.Shell

/-- Why a script ends before its end. -/
inductive Stop where
  | exit
  /-- A signal ended it. -/
  | killed
  /-- It never ends. -/
  | endless
  deriving DecidableEq

/-- The state of a running script. -/
structure Session where
  files : FileTree
  cwd : Place
  env : Dict String
  /-- The name of the script, and its arguments. -/
  name : String
  args : List String
  /-- The status of the last command. -/
  status : Nat
  /-- Milliseconds since the beginning. -/
  elapsed : Nat
  /-- When the last background command ends. -/
  linger : Nat
  input : List UInt8
  /-- What was written, and to which stream. -/
  output : List (Nat × ByteArray)
  /-- Whether a command that fails ends the script. -/
  strict : Bool
  stop : Option Stop

namespace Session

/-- A session that begins. -/
def start (files : FileTree) (cwd : Place) (env : Dict String) (name : String)
    (args : List String) : Session :=
  ⟨files, cwd, env, name, args, 0, 0, 0, [], [], false, none⟩

/-- Writes bytes to a stream. -/
def write (s : Session) (stream : Nat) (bytes : ByteArray) : Session :=
  if bytes.isEmpty then s else { s with output := s.output ++ [(stream, bytes)] }

/-- Writes a text. -/
def say (s : Session) (text : String) : Session := s.write 1 text.toUTF8

/-- Ends a command with a status. -/
def withStatus (s : Session) (status : Nat) : Session := { s with status := status % 256 }

/-- Ends a command with a status and a message. -/
def complain (s : Session) (status : Nat) (message : String) : Session :=
  (s.write 2 (message ++ "\n").toUTF8).withStatus status

/-- Ends a command of the shell itself with a status and a message. -/
def complainAs (s : Session) (status : Nat) (message : String) : Session :=
  s.complain status (s.name ++ ": 1: " ++ message)

/-- Ends the script if a command has failed and that is not allowed. -/
def heed (s : Session) : Session :=
  if s.strict && s.status != 0 && s.stop.isNone then { s with stop := some .exit } else s

/-- The variable that holds the directory says where the session is. -/
def noteDirectory (s : Session) : Session :=
  { s with env := s.env.insert "PWD" (Path.ofPlace s.cwd) }

/-- What was written to a stream. -/
def written (s : Session) (stream : Nat) : ByteArray :=
  s.output.foldl (fun acc (n, bytes) => if n = stream then acc ++ bytes else acc) ByteArray.empty

/-- The value of a parameter: a variable, an argument or a special one. -/
def parameter? (s : Session) (name : List Char) : Option String :=
  match name with
  | ['?'] => some (toString s.status)
  | ['$'] => some "4242"
  | ['#'] => some (toString s.args.length)
  | ['@'] | ['*'] => if s.args.isEmpty then none else some (Text.joinWith " " s.args)
  | ['!'] | ['-'] => some ""
  | ['0'] => some s.name
  | [c] =>
    if c.isDigit then s.args[c.toNat - 49]? else s.env.get? (String.ofList name)
  | _ => s.env.get? (String.ofList name)

end Session

end Qualification.Shell
