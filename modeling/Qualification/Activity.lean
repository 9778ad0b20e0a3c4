import Qualification.Command
import Qualification.Environment.Script
import Qualification.Log
import Qualification.Time
import Qualification.Uuid
import Qualification.Word
/-!
# Activities in time

Plugins act on a world: the variables for commands, background tasks, and a state behind the
executor of commands, on which the world is parametric. Time is a number of milliseconds that moves
only while an activity waits.

* `World`, `Task`;
* `Act σ α`: an activity with a result, which may also panic or be cut off by the time limit of the
  stage that it belongs to;
* `Act.wait`, `Act.perform`, `Act.join`, `Act.stopWithin`: the activities that take time.

A limit and something else that fall due at the same instant: the limit wins. Tasks that are started
run for the first time when the activity that started them waits or ends.
-/

namespace Qualification

/-- Where a background task stands. -/
inductive Phase where
  | queued
  | running (due : Nat) (status : Int)
  | ended (status : Int)
  | aborted
  deriving DecidableEq

namespace Phase

/-- Whether a task may still act. -/
def isAlive : Phase → Bool
  | queued => true
  | running _ _ => true
  | _ => false

end Phase

/-- A background task: what it does when it first runs decides how long it then waits and its
status. One that panics ends with the status of a fault. -/
structure Task (σ : Type) where
  id : Nat
  begin : σ → (Nat × Int) × σ
  phase : Phase

/-- Something that a run tells apart from its logs. -/
inductive Notice where
  /-- A section that matches no plugin. -/
  | unmatchedSection (title : String)
  /-- A key that a plugin does not declare. -/
  | undeclaredOption (plugin option : String)
  deriving DecidableEq

/-- A harasser in the hands of a plugin: its task, its words and the script that stops it. -/
structure Harasser where
  task : Nat
  stopScript : String
  deriving DecidableEq

/-- The world that plugins act on. -/
structure World (σ : Type) where
  /-- Milliseconds since the beginning. -/
  now : Nat
  /-- When the running stage has to end. -/
  deadline : Option Nat
  /-- Whether the activity is a task of its own, which others may come before. -/
  inStage : Bool
  env : Environment
  /-- Background tasks, in the order in which they were started. -/
  tasks : List (Task σ)
  /-- The harassers that each plugin has started and not stopped. -/
  crew : Nat → List Harasser
  notices : List Notice
  /-- The instant of the beginning, and whether the clock on the wall moves with time. -/
  epoch : Instant
  wallMoves : Bool
  /-- The number of the next identifier. -/
  nextId : Nat
  host : σ

namespace World

variable {σ : Type}

/-- A world at its beginning. -/
def start (host : σ) (epoch : Instant) (wallMoves : Bool) : World σ :=
  ⟨0, none, false, Dict.empty, [], fun _ => [], [], epoch, wallMoves, 0, host⟩

/-- Milliseconds on the clock on the wall. -/
def wallMillis (w : World σ) : Nat := if w.wallMoves then w.now else 0

/-- The time of day. -/
def instant (w : World σ) : Instant := w.epoch.addMillis w.wallMillis

/-- A fresh identifier. -/
def freshUuid (w : World σ) : Uuid × World σ :=
  (Uuid.ofNat (w.nextId + Word.half128), { w with nextId := w.nextId + 1 })

def notice (w : World σ) (ns : List Notice) : World σ := { w with notices := w.notices ++ ns }

/-! ## Background tasks -/

/-- The phase of a task; one that was never started counts as aborted. -/
def phase (w : World σ) (id : Nat) : Phase :=
  match w.tasks.find? fun t => t.id == id with
  | some t => t.phase
  | none => .aborted

/-- Starts a task and tells its number. -/
def spawn (w : World σ) (begin : σ → (Nat × Int) × σ) : Nat × World σ :=
  let id := w.tasks.length
  (id, { w with tasks := w.tasks ++ [⟨id, begin, .queued⟩] })

/-- A task that is aborted, unless it has ended. -/
def abortTask (t : Task σ) : Task σ := if t.phase.isAlive then { t with phase := .aborted } else t

/-- Aborts a task. -/
def abort (w : World σ) (id : Nat) : World σ :=
  { w with tasks := w.tasks.map fun t => if t.id == id then abortTask t else t }

def abortAll (w : World σ) (ids : List Nat) : World σ := ids.foldl abort w

/-- A task at the end of its wait, if it falls due. -/
def wake (isDue : Task σ → Nat → Bool) (t : Task σ) : Task σ :=
  match t.phase with
  | .running due status => if isDue t due then { t with phase := .ended status } else t
  | _ => t

/-- Runs queued tasks for the first time, in order. -/
def startQueued (now : Nat) : List (Task σ) → σ → List (Task σ) × σ
  | [], host => ([], host)
  | t :: ts, host =>
    match t.phase with
    | .queued =>
      let ((delay, status), host) := t.begin host
      let (ts, host) := startQueued now ts host
      ({ t with phase := if delay = 0 then .ended status else .running (now + delay) status } :: ts,
        host)
    | _ =>
      let (ts, host) := startQueued now ts host
      (t :: ts, host)

/-- Lets every task act that can act now. -/
def settle (w : World σ) : World σ :=
  let tasks := w.tasks.map (wake fun _ due => due ≤ w.now)
  let (tasks, host) := startQueued w.now tasks w.host
  { w with tasks, host }

/-- Moves the clock, and wakes the tasks that fall due before or, as far as `also` says, then. -/
def moveTo (w : World σ) (time : Nat) (also : Task σ → Bool) : World σ :=
  { w with now := time, tasks := w.tasks.map (wake fun t due => due < time || (due == time && also t)) }

end World

/-- How an activity ends: with a result, with a panic and perhaps a text, or cut off. -/
inductive Ending (α : Type) where
  | done (a : α)
  | panicked (payload : Option String)
  | cut

/-- An activity on a world. -/
def Act (σ α : Type) : Type := World σ → Ending α × World σ

namespace Act

variable {σ α β : Type}

def pure (a : α) : Act σ α := fun w => (.done a, w)

/-- One activity after another; the second one does not begin if the first one has no result. -/
def bind (x : Act σ α) (f : α → Act σ β) : Act σ β := fun w =>
  match x w with
  | (.done a, w) => f a w
  | (.panicked p, w) => (.panicked p, w)
  | (.cut, w) => (.cut, w)

instance : Monad (Act σ) where
  pure := pure
  bind := bind

/-- Something that takes no time and always has a result. -/
def ofState (f : World σ → α × World σ) : Act σ α := fun w =>
  let (a, w) := f w
  (.done a, w)

def get : Act σ (World σ) := fun w => (.done w, w)

def modify (f : World σ → World σ) : Act σ Unit := fun w => (.done (), f w)

/-- A panic. -/
def panicWith (payload : Option String) : Act σ α := fun w => (.panicked payload, w)

/-- An activity with something to put right where it ends without a result. -/
def orElseUndo (x : Act σ α) (undo : World σ → World σ) : Act σ α := fun w =>
  match x w with
  | (.done a, w) => (.done a, w)
  | (.panicked p, w) => (.panicked p, undo w)
  | (.cut, w) => (.cut, undo w)

/-- Whether a stage has to end by some time. -/
def endsBy (w : World σ) (time : Nat) : Option Nat := w.deadline.filter (· ≤ time)

/-- Cuts the activity off at its limit. -/
def cutAt (limit : Nat) : Act σ α := fun w => (.cut, w.moveTo limit fun _ => true)

/-- Waits some milliseconds. Tasks that fall due at the end of the wait have acted before the
activity goes on only if it is a task of its own and they waited before it. -/
def wait (ms : Nat) : Act σ Unit := fun w =>
  if ms = 0 then (.done (), w)
  else
    let time := w.now + ms
    let earlier := (w.tasks.filter fun t => match t.phase with
      | .running _ _ => true
      | _ => false).map Task.id
    let w := w.settle
    match endsBy w time with
    | some limit => cutAt limit w
    | none => (.done (), w.moveTo time fun t => w.inStage && earlier.contains t.id)

/-- Runs a command and waits for what comes of it. -/
def perform (executor : Executor σ) (request : Request) : Act σ (Except Fault Output) := do
  let response ← ofState fun w =>
    let (r, host) := executor request w.host
    (r, { w with host })
  wait response.after
  return response.result

/-- The status of a task that is over. -/
def overStatus? : Phase → Option Int
  | .ended status => some status
  | .aborted => some faultStatus
  | _ => none

/-- Waits for a task to end; one that was aborted has the status of a fault. -/
def join (id : Nat) : Act σ Int := fun w =>
  match overStatus? (w.phase id) with
  | some status => (.done status, w)
  | none =>
    let w := w.settle
    match w.phase id with
    | .running due status =>
      match endsBy w due with
      | some limit => cutAt limit w
      | none => (.done status, w.moveTo due fun _ => true)
    | phase => (.done ((overStatus? phase).getD faultStatus), w)

/-- Waits for a task to end, but only some milliseconds. -/
def joinWithin (id ms : Nat) : Act σ (Option Int) := fun w =>
  match overStatus? (w.phase id) with
  | some status => (.done (some status), w)
  | none =>
    if ms = 0 then (.done none, w)
    else
      let w := w.settle
      match w.phase id with
      | .running due status =>
        let time := w.now + ms
        match endsBy w (min due time) with
        | some limit => cutAt limit w
        | none =>
          if due < time then (.done (some status), w.moveTo due fun _ => true)
          else (.done none, w.moveTo time fun _ => false)
      | phase => (.done (some ((overStatus? phase).getD faultStatus)), w)

/-- Waits for a task to end, but only some milliseconds; then it is aborted, which has the status of
a time limit. -/
def stopWithin (id ms : Nat) : Act σ Int := do
  match ← joinWithin id ms with
  | some status => return status
  | none =>
    modify (·.abort id)
    return timeoutStatus

end Act

end Qualification
