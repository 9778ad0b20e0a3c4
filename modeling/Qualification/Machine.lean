import Qualification.Log
import Qualification.Shell.Run
import Qualification.Command
/-!
# The machine that commands run on

A machine holds a file tree, the variables and the directory that its commands begin with, and its
clock. It runs the utilities of the shell, and scripts of them.

* `Machine.executor` runs commands; `Machine.dryExecutor` only tells what it would run.
-/

namespace Qualification

/-- A machine. -/
structure Machine where
  files : FileTree
  cwd : Place
  env : Dict String
  /-- The time of day. -/
  clock : Instant
  /-- What fresh identifiers are made from. -/
  seed : Nat

namespace Machine

open Shell (Session)

/-- Longer than anything waits. -/
def forever : Nat := 1000000000000000

/-- How many steps a script may take before it counts as endless. -/
def patience : Nat := 10000

/-- The fault of a command that cannot be started. -/
def spawnFault (request : Request) (cause : String) : Fault :=
  (Fault.ofText cause).within s!"Failed to spawn '{request.display}'"

/-- Whether a text can be given to a program. -/
def isCString (s : String) : Bool := !s.toList.contains (Char.ofNat 0)

/-- The program of a command and the directory that it begins in. -/
def prepare (m : Machine) (request : Request) (env : Dict String) :
    Except Fault (String × Place) :=
  let missing := spawnFault request "No such file or directory (os error 2)"
  if !(request.program :: request.args).all isCString then
    .error (spawnFault request "nul byte found in provided data")
  else
    let cwd? := match request.cwd with
      | none => some m.cwd
      | some path => (m.files.resolve? m.cwd path).filter m.files.isDirectory
    match Shell.programName? env request.program, cwd? with
    | some program, some cwd =>
      if (Shell.shared? false program).isSome || (Shell.external? program).isSome ||
          ["sh", "dash", "bash", "env"].contains program then .ok (program, cwd)
      else .error missing
    | _, _ => .error missing

/-- The output of a command that took too long. -/
def timedOut (request : Request) (limit : Duration) : Output :=
  ⟨timeoutStatus, "", s!"Command '{request.display}' timed out after {limit.render}", true⟩

/-- What comes of a session that has ended. -/
def response (request : Request) (s : Session) : Response :=
  let total := if s.stop == some .endless then forever else max s.elapsed s.linger
  let output : Output :=
    ⟨if s.stop == some .killed then -1 else s.status, Text.decodeLossy (s.written 1),
      Text.decodeLossy (s.written 2), false⟩
  match request.timeout with
  | some limit =>
    if limit.nanos < total * 1000000 then ⟨limit.millisUp, .ok (timedOut request limit)⟩
    else ⟨total, .ok output⟩
  | none => ⟨total, .ok output⟩

/-- Runs commands. -/
def executor : Executor Machine := fun request m =>
  let env := m.env.union request.env
  match m.prepare request env with
  | .error fault => (⟨0, .error fault⟩, m)
  | .ok (program, cwd) =>
    let s := Shell.runProgram patience false program request.args
      (Session.start m.files cwd env request.program request.args)
    (response request s, { m with files := s.files })

/-- Tells what would be run. -/
def dryExecutor : Executor Machine := fun request m =>
  (⟨0, .ok ⟨0, request.display, "", false⟩⟩, m)

end Machine

end Qualification
