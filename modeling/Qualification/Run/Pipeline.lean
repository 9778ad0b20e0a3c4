import Qualification.Run.Dispatch
import Qualification.Run.Event
import Qualification.Run.Gate
import Qualification.Run.Report
/-!
# Runs of the pipeline

A run takes the stages in their order, and for each of them the sections that are addressed to it. It
ends early where a section says so, where a section fails and failures are not passed over, and where
its time is over.

* `RunPolicy`, `Recorder`, `Pipeline`: what a run is given;
* `Progress`, `Flow`: how far a run is, and whether it goes on;
* `Pipeline.visit` for one section, `walkSections`, `walkStages`, `Pipeline.run`.
-/

namespace Qualification

/-- How a run is called and what it does about failures and time. -/
structure RunPolicy where
  name : String
  /-- Whether the run goes on after a failure. -/
  continueOnFailure : Bool
  limits : Limits
  /-- The digest of the definition. -/
  digest : Option String

/-- What becomes of a journal when an event is written to it; an event may be lost. -/
abbrev Recorder (ρ : Type) : Type := Event → ρ → ρ

/-- What a run is given. -/
structure Pipeline (σ ρ : Type) where
  policy : RunPolicy
  registry : Registry σ
  context : Context σ
  recorder : Recorder ρ

/-- How far a run is. -/
structure Progress (σ ρ : Type) where
  world : World σ
  journal : ρ
  tracker : Tracker
  state : RunState
  logs : List Log

/-- Whether a run goes on after a section. -/
inductive Flow where
  | onward
  /-- The run was stopped by a section with this title. -/
  | stopped (title : String)
  | aborted
  deriving DecidableEq

/-- The sections that a stage is invoked for: those addressed to its key, or else one that is titled
with its key and empty. -/
def Sections.visits (s : Sections) (key : String) : List Sections.Addressed :=
  let found := s.addressedTo key
  if found.isEmpty then [⟨key, Title.parse key, Dict.empty⟩] else found

namespace Pipeline

variable {σ ρ : Type}

/-- An event at the present time, and the world after it. -/
def event (p : Pipeline σ ρ) (kind : EventKind) (summary : String)
    (stage : Option (String × Nat)) (log : Option Log) (digest : Option String)
    (w : World σ) : Event × World σ :=
  let (id, w) := w.freshUuid
  ({ id, timestamp := w.instant, runId := p.context.runId, stage := stage.map Prod.fst
     stageIndex := stage.map Prod.snd, kind, summary, log, definitionHash := digest }, w)

/-- The event of a section that begins. -/
def startEvent (p : Pipeline σ ρ) (key : String) (index : Nat) (title : String) :
    World σ → Event × World σ :=
  p.event .stageStarted s!"Section '{title}' started" (some (key, index)) none none

/-- The event of a section's log. -/
def logEvent (p : Pipeline σ ρ) (key : String) (index : Nat) (title : String) (log : Log) :
    World σ → Event × World σ :=
  if log.succeeded then
    p.event .stageCompleted s!"Section '{title}' completed" (some (key, index)) (some log) none
  else
    p.event .stageFailed s!"Section '{title}' {describeStatus log.status}" (some (key, index))
      (some log) none

/-- Writes an event. -/
def emit (p : Pipeline σ ρ) (event : World σ → Event × World σ) (g : Progress σ ρ) :
    Progress σ ρ :=
  let (e, world) := event g.world
  { g with world, journal := p.recorder e g.journal }

/-- Invokes a section, unless its parent holds it back. -/
def invokeSection (p : Pipeline σ ρ) (unit : Registered σ) (s : Sections.Addressed)
    (g : Progress σ ρ) : Log × Progress σ ρ :=
  match heldBack? unit.key s.title s.values g.logs with
  | some log => (log, g)
  | none =>
    let (log, world) := dispatch p.registry p.context p.policy.limits unit s.title s.values g.world
    (log, { g with world, tracker := g.tracker.recordStage })

/-- The log of a section, and whether the time of the run is over. -/
def sectionLog (p : Pipeline σ ρ) (unit : Registered σ) (s : Sections.Addressed)
    (g : Progress σ ρ) : Log × Bool × Progress σ ρ :=
  match p.policy.limits.check (g.tracker.elapsedSeconds g.world.wallMillis) with
  | some violation =>
    ((Log.new unit.key s.title).fail timeoutStatus violation.message, true, g)
  | none =>
    let (log, g) := p.invokeSection unit s g
    (log, false, g)

/-- Runs a section. -/
def runSection (p : Pipeline σ ρ) (index : Nat) (unit : Registered σ) (s : Sections.Addressed)
    (g : Progress σ ρ) : Progress σ ρ × Flow :=
  let g := p.emit (p.startEvent unit.key index s.title) g
  let (log, expired, g) := p.sectionLog unit s g
  let g := p.emit (p.logEvent unit.key index s.title log) g
  let g := { g with logs := g.logs ++ [log] }
  if expired || (!log.succeeded && !p.policy.continueOnFailure) then
    ({ g with state := g.state.advance (.abortedAt index s.title) }, .aborted)
  else (g, .onward)

/-- Visits a section: its title may leave it out or stop the run. -/
def visit (p : Pipeline σ ρ) (index : Nat) (unit : Registered σ) (s : Sections.Addressed)
    (g : Progress σ ρ) : Progress σ ρ × Flow :=
  match s.parts.qualifier with
  | some .skip => (g, .onward)
  | some .stop => (g, .stopped s.title)
  | none => p.runSection index unit s g

/-- Visits the sections of a stage. -/
def walkSections (p : Pipeline σ ρ) (index : Nat) (unit : Registered σ) :
    List Sections.Addressed → Progress σ ρ → Progress σ ρ × Flow
  | [], g => (g, .onward)
  | s :: rest, g =>
    match p.visit index unit s g with
    | (g, .onward) => p.walkSections index unit rest g
    | (g, flow) => (g, flow)

/-- Visits the sections of stages, the first of which has an index. -/
def walkStages (p : Pipeline σ ρ) : (index : Nat) → List (Registered σ) → Progress σ ρ →
    Progress σ ρ × Flow
  | _, [], g => (g, .onward)
  | index, unit :: rest, g =>
    let g := { g with state := g.state.advance (.running index) }
    match p.walkSections index unit (p.context.config.visits unit.key) g with
    | (g, .onward) => p.walkStages (index + 1) rest g
    | (g, flow) => (g, flow)

/-- The sections whose key no plugin has. -/
def unmatched (p : Pipeline σ ρ) : List Notice :=
  (p.context.config.entries.filter fun e =>
    !p.registry.containsKey (Title.parse e.1).stage).map fun e => .unmatchedSection e.1

/-- The beginning of a run. -/
def begin (p : Pipeline σ ρ) (world : World σ) (journal : ρ) : Progress σ ρ :=
  let g : Progress σ ρ :=
    ⟨world.notice p.unmatched, journal, Tracker.start world.wallMillis, .notStarted, []⟩
  p.emit (p.event .runStarted p.policy.name none none p.policy.digest) g

/-- What is told of a run that came to its end. -/
def completedSummary : Flow → String
  | .stopped title => s!"Run stopped at section '{title}'"
  | _ => "Run completed"

/-- The end of a run. -/
def finish (p : Pipeline σ ρ) (g : Progress σ ρ) (flow : Flow) : Progress σ ρ :=
  let g := { g with state := g.state.advance .completed }
  match g.state with
  | .abortedAt index title =>
    p.emit (p.event .runAborted s!"Run aborted at '{title}'" (some (title, index)) none none) g
  | _ => p.emit (p.event .runCompleted (completedSummary flow) none none none) g

/-- A whole run, from its beginning to its end. -/
def progress (p : Pipeline σ ρ) (world : World σ) (journal : ρ) : Progress σ ρ :=
  let (g, flow) := p.walkStages 0 p.registry.ordered (p.begin world journal)
  p.finish g flow

/-- The report on a run. -/
def report (p : Pipeline σ ρ) (g : Progress σ ρ) : RunReport :=
  ⟨p.context.runId, p.policy.name, g.state, g.logs⟩

/-- Runs the pipeline. -/
def run (p : Pipeline σ ρ) (world : World σ) (journal : ρ) : RunReport × Progress σ ρ :=
  let g := p.progress world journal
  (p.report g, g)

end Pipeline

end Qualification
