import Qualification.Plugin
/-!
# The utility for harassers

A harasser is a script that runs in the background to put stress on what is tested. The utility
starts harassers, checks that none has died, and stops them, each with a script of its own. The
harassers that it has started and not stopped are its crew.

* `HarasserUtility.start`, `check`, `stop`, and the plugin.

A harasser taken from the crew is in the hands of one activity; if that ends without a result, the
harassers still in its hands are aborted.
-/

namespace Qualification.HarasserUtility

variable {σ : Type}

/-- The actions of the utility. -/
inductive Action where
  | start | check | stop
  deriving DecidableEq

def action? (s : String) : Option Action :=
  if s = "start" then some .start
  else if s = "check" then some .check
  else if s = "stop" then some .stop
  else none

/-- The crew of an instance. -/
def setCrew (w : World σ) (owner : Nat) (hs : List Harasser) : World σ :=
  { w with crew := fun n => if n = owner then hs else w.crew n }

/-- Takes the whole crew. -/
def takeCrew (owner : Nat) : Act σ (List Harasser) :=
  Act.ofState fun w => (w.crew owner, setCrew w owner [])

/-- Adds harassers to the crew. -/
def addCrew (owner : Nat) (hs : List Harasser) : Act σ Unit :=
  Act.modify fun w => setCrew w owner (w.crew owner ++ hs)

/-- Aborts harassers. -/
def abortAll (hs : List Harasser) (w : World σ) : World σ := w.abortAll (hs.map Harasser.task)

/-- The status that a script ends with; one that cannot be run has the status of a fault. -/
def scriptStatus : Except Fault Output → Int
  | .ok out => out.status
  | .error _ => faultStatus

/-- What a harasser does: it runs its command. -/
def task (executor : Executor σ) (request : Request) (host : σ) : (Nat × Int) × σ :=
  let (response, host) := executor request host
  ((response.after, scriptStatus response.result), host)

/-- Starts a harasser for each pair of scripts, and tells the numbers of their tasks. -/
def startPairs (owner : Nat) (s : Services σ) : List (String × String) → Act σ (List Nat)
  | [] => return []
  | (trigger, stopScript) :: rest => do
    match Request.ofWords? (Text.words trigger) with
    | none => startPairs owner s rest
    | some request =>
      let request := { request with env := (← Act.get).env, cwd := s.scratchDir }
      let id ← Act.ofState fun w => w.spawn (task s.executor request)
      addCrew owner [⟨id, stopScript⟩]
      let ids ← startPairs owner s rest
      return id :: ids

/-- Starts a harasser for each trigger script that has a stop script. -/
def start (owner : Nat) (s : Services σ) (log : Log) (r : Resolved) : Act σ Log := do
  let ids ← startPairs owner s ((r.list "trigger_scripts").zip (r.list "stop_scripts"))
  let log := { log with stdout := s!"Started {ids.length} harasser(s)", status := 0 }
  return log.withExtra "harassers" (Text.joinWith "," (ids.map toString))

/-- How long stopping waits for a harasser, if not for ever. -/
def joinTimeout? (r : Resolved) : Option Nat :=
  ((r.int? "join_timeout").filter (0 ≤ ·)).map fun n => n.toNat * 1000

/-- Runs the stop script of a harasser; a blank one has nothing to do. -/
def runStopScript (s : Services σ) (h : Harasser) : Act σ Int := do
  match Request.ofWords? (Text.words h.stopScript) with
  | none => return 0
  | some request =>
    let request := { request with env := (← Act.get).env }
    return scriptStatus (← Act.perform s.executor request)

/-- Waits for a harasser, and aborts it if it takes too long. -/
def joinOrAbort (limit : Option Nat) (h : Harasser) : Act σ Unit := do
  match limit with
  | none => let _ ← Act.join h.task
  | some ms => let _ ← Act.stopWithin h.task ms

/-- Stops one harasser: with its script if that succeeds, and else by aborting it. Tells the failure
of the script. -/
def stopOne (s : Services σ) (limit : Option Nat) (h : Harasser) : Act σ (Option String) := do
  let status ← runStopScript s h
  if status = 0 then
    joinOrAbort limit h
    return none
  else
    Act.modify (·.abort h.task)
    return some
      s!"stop script '{h.stopScript}' for harasser {h.task} exited with status {status}"

/-- Stops harassers in order; those that are left are aborted if it does not come to an end. -/
def stopEach (s : Services σ) (limit : Option Nat) : List Harasser → Act σ (List String)
  | [] => return []
  | h :: hs => do
    let failure ← (stopOne s limit h).orElseUndo (abortAll (h :: hs))
    let failures ← stopEach s limit hs
    return failure.toList ++ failures

/-- Stops the crew. -/
def stop (owner : Nat) (s : Services σ) (log : Log) (r : Resolved) : Act σ Log := do
  let crew ← takeCrew owner
  let failures ← stopEach s (joinTimeout? r) crew
  let log := { log with stdout := s!"Stopped {crew.length} harasser(s)" }
  if failures.isEmpty then return { log with status := 0 }
  else return log.fail 1 (Text.joinWith "\n" failures)

/-- The death notice of a harasser that ended with a status other than 0. -/
def deathNotice? (h : Harasser) (status : Int) : Option String :=
  if status = 0 then none else some s!"harasser {h.task} exited with status {status}"

/-- The death notices of harassers that are over. -/
def deathNotices : List Harasser → Act σ (List String)
  | [] => return []
  | h :: hs => do
    let status ← Act.join h.task
    let more ← deathNotices hs
    return (deathNotice? h status).toList ++ more

/-- Puts the living harassers back into the crew; if one of the others failed, all are stopped. -/
def check (owner : Nat) (s : Services σ) (log : Log) (r : Resolved) : Act σ Log := do
  let crew ← takeCrew owner
  let w ← Act.get
  let (alive, ended) := crew.partition fun h => (w.phase h.task).isAlive
  let dead ← deathNotices ended
  addCrew owner alive
  if dead.isEmpty then
    let running := ((← Act.get).crew owner).length
    return { log with stdout := s!"{running} harasser(s) running", status := 0 }
  else
    let log ← stop owner s log r
    return log.fail 1 (Text.joinWith "\n" dead)

/-- Does what the `action` option says. -/
def execute (owner : Nat) (s : Services σ) (log : Log) (r : Resolved) :
    Act σ (Log × Except Fault Unit) := do
  let word := Text.trim ((r.get? "action").getD "start")
  match action? word with
  | some .start => return (← start owner s log r, .ok ())
  | some .check => return (← check owner s log r, .ok ())
  | some .stop => return (← stop owner s log r, .ok ())
  | none => return (log, .error (.ofText s!"unknown harasser action '{word}'"))

/-- Aborts the crew. -/
def release (owner : Nat) (w : World σ) : World σ :=
  setCrew (abortAll (w.crew owner) w) owner []

/-- The options of the utility. -/
def options : OptionSpec :=
  Dict.ofList [
    ("action", ⟨"start", "One of start, check or stop"⟩),
    ("trigger_scripts", ⟨"", "Scripts to run to launch harassers"⟩),
    ("stop_scripts", ⟨"", "Scripts to run to stop and clean up harassers"⟩),
    ("join_timeout", ⟨"", "Seconds to wait for harassers to finish"⟩)]

/-- The utility. -/
def plugin : Plugin σ :=
  { Plugin.simple "Harasser" execute with options, release }

end Qualification.HarasserUtility
