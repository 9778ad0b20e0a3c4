import Qualification.Run.Pipeline
/-!
# The walk of a run

The rule of a run, stated apart from how it is carried out. The route of a run is a plain list of
sections, without those that are left out; they are visited one after the other until the first of
them ends the run. Neither the journal nor the state of the run has a part in it.

* `Visit`, `Pipeline.route`: the sections that a run may come to;
* `Pipeline.attend`: what comes of one of them; `Pipeline.step`, `Pipeline.walk`,
  `Pipeline.journey`;
* `Pipeline.events`: the events of a run;
* `walk_append`: a walk goes on where its first part ends, if that does not end the run;
* `Reaches`, `reaches_visit`, `reaches_walkSections`, `reaches_walkStages`: how a run that is
  carried out keeps to the walk;
* **`run_eq`**: a run is its walk, and its journal gets the events of it.
-/

namespace Qualification

/-- A section on the route of a run, with its stage and the index of that. -/
structure Visit (σ : Type) where
  index : Nat
  unit : Registered σ
  sect : Sections.Addressed

/-- How a section is dealt with. -/
inductive Manner where
  /-- The time of the run is over. -/
  | expired
  /-- Its parent holds it back. -/
  | heldBack
  | invoked
  deriving DecidableEq

/-- A section that was visited: how it was dealt with, its log, and the events of its beginning and
its end. -/
structure Attended (σ : Type) where
  visit : Visit σ
  manner : Manner
  log : Log
  opened : Event
  closed : Event

/-- What sections find that are visited later. -/
structure Stand (σ : Type) where
  world : World σ
  tracker : Tracker
  logs : List Log

/-- What sections find while a run is under way. -/
def Progress.stand {σ ρ : Type} (g : Progress σ ρ) : Stand σ := ⟨g.world, g.tracker, g.logs⟩

/-- How a walk ends. -/
inductive Outcome where
  /-- It came to the end of its route. -/
  | through
  /-- It came to a section that stops it. -/
  | stopped (title : String)
  /-- It ended with a section that it visited. -/
  | aborted (index : Nat) (title : String)
  deriving DecidableEq

/-- A walk: the visited sections, how it ends, and what is there then. -/
structure Journey (σ : Type) where
  visited : List (Attended σ)
  outcome : Outcome
  stand : Stand σ

namespace Visit

variable {σ : Type}

/-- The key of the stage. -/
def key (v : Visit σ) : String := v.unit.key

def title (v : Visit σ) : String := v.sect.title

/-- Whether the run stops here. -/
def stops (v : Visit σ) : Bool := v.sect.parts.qualifier == some .stop

/-- The log of the section after others, if its parent holds it back. -/
def heldBack? (v : Visit σ) (logs : List Log) : Option Log :=
  Qualification.heldBack? v.key v.title v.sect.values logs

end Visit

namespace Attended

variable {σ : Type}

def events (x : Attended σ) : List Event := [x.opened, x.closed]

/-- Whether the run ends with this section. -/
def ends (policy : RunPolicy) (x : Attended σ) : Bool :=
  x.manner == .expired || (!x.log.succeeded && !policy.continueOnFailure)

end Attended

namespace Outcome

/-- The state of a run that ended so. -/
def state : Outcome → RunState
  | aborted index title => .abortedAt index title
  | _ => .completed

/-- Whether a run goes on after this. -/
def flow : Outcome → Flow
  | through => .onward
  | stopped title => .stopped title
  | aborted _ _ => .aborted

end Outcome

namespace Journey

variable {σ : Type}

def events (j : Journey σ) : List Event := j.visited.flatMap Attended.events

/-- A walk, and another one from where it ends, if it may go on there. -/
def andThen (j : Journey σ) (next : Stand σ → Journey σ) : Journey σ :=
  match j.outcome with
  | .through =>
    let k := next j.stand
    ⟨j.visited ++ k.visited, k.outcome, k.stand⟩
  | _ => j

theorem andThen_of_through {j : Journey σ} (h : j.outcome = .through) (next : Stand σ → Journey σ) :
    j.andThen next =
      ⟨j.visited ++ (next j.stand).visited, (next j.stand).outcome, (next j.stand).stand⟩ := by
  simp [andThen, h]

theorem andThen_of_ne {j : Journey σ} (h : j.outcome ≠ .through) (next : Stand σ → Journey σ) :
    j.andThen next = j := by
  unfold andThen
  split
  · exact absurd ‹_› h
  · rfl

theorem andThen_assoc (j : Journey σ) (f g : Stand σ → Journey σ) :
    (j.andThen f).andThen g = j.andThen fun s => (f s).andThen g := by
  by_cases hj : j.outcome = .through
  · rw [andThen_of_through hj, andThen_of_through hj]
    by_cases hf : (f j.stand).outcome = .through
    · rw [andThen_of_through (by exact hf), andThen_of_through hf]
      simp
    · rw [andThen_of_ne (by exact hf), andThen_of_ne hf]
  · rw [andThen_of_ne hj, andThen_of_ne hj, andThen_of_ne hj]

end Journey

namespace Pipeline

variable {σ ρ : Type}

/-! ## The rule -/

/-- The sections of a stage that are not left out. -/
def visitsOf (p : Pipeline σ ρ) (index : Nat) (unit : Registered σ) : List (Visit σ) :=
  ((p.context.config.visits unit.key).filter fun s => s.parts.qualifier != some .skip).map
    fun s => ⟨index, unit, s⟩

/-- The sections of stages, the first of which has an index. -/
def routeFrom (p : Pipeline σ ρ) (index : Nat) (units : List (Registered σ)) : List (Visit σ) :=
  (units.zipIdx index).flatMap fun e => p.visitsOf e.2 e.1

/-- The sections that a run may come to, in order. -/
def route (p : Pipeline σ ρ) : List (Visit σ) := p.routeFrom 0 p.registry.ordered

/-- How the time of the run is over, if it is. -/
def violation? (p : Pipeline σ ρ) (s : Stand σ) : Option LimitViolation :=
  p.policy.limits.check (s.tracker.elapsedSeconds s.world.wallMillis)

/-- Deals with a section: how, its log, and what is there then. -/
def deal (p : Pipeline σ ρ) (v : Visit σ) (s : Stand σ) : Manner × Log × Stand σ :=
  match p.violation? s with
  | some violation =>
    (.expired, (Log.new v.key v.title).fail timeoutStatus violation.message, s)
  | none =>
    match v.heldBack? s.logs with
    | some log => (.heldBack, log, s)
    | none =>
      let (log, world) :=
        dispatch p.registry p.context p.policy.limits v.unit v.title v.sect.values s.world
      (.invoked, log, { s with world, tracker := s.tracker.recordStage })

/-- Visits a section. -/
def attend (p : Pipeline σ ρ) (v : Visit σ) (s : Stand σ) : Attended σ × Stand σ :=
  let (opened, world) := p.startEvent v.key v.index v.title s.world
  let (manner, log, s) := p.deal v { s with world }
  let (closed, world) := p.logEvent v.key v.index v.title log s.world
  (⟨v, manner, log, opened, closed⟩, ⟨world, s.tracker, s.logs ++ [log]⟩)

/-- The walk through one section. -/
def step (p : Pipeline σ ρ) (v : Visit σ) (s : Stand σ) : Journey σ :=
  if v.stops then ⟨[], .stopped v.title, s⟩
  else
    let (x, s) := p.attend v s
    ⟨[x], if x.ends p.policy then .aborted v.index v.title else .through, s⟩

/-- The walk through sections, until the first one that ends it. -/
def walk (p : Pipeline σ ρ) : List (Visit σ) → Stand σ → Journey σ
  | [], s => ⟨[], .through, s⟩
  | v :: rest, s => (p.step v s).andThen (p.walk rest)

/-- The event of the beginning. -/
def opening (p : Pipeline σ ρ) : World σ → Event × World σ :=
  p.event .runStarted p.policy.name none none p.policy.digest

/-- The event of the end. -/
def closing (p : Pipeline σ ρ) : Outcome → World σ → Event × World σ
  | .aborted index title =>
    p.event .runAborted s!"Run aborted at '{title}'" (some (title, index)) none none
  | outcome => p.event .runCompleted (completedSummary outcome.flow) none none none

/-- What the first section finds. -/
def outset (p : Pipeline σ ρ) (w : World σ) : Stand σ :=
  ⟨(p.opening (w.notice p.unmatched)).2, Tracker.start w.wallMillis, []⟩

/-- The walk of a run. -/
def journey (p : Pipeline σ ρ) (w : World σ) : Journey σ := p.walk p.route (p.outset w)

/-- The events of a run. -/
def events (p : Pipeline σ ρ) (w : World σ) : List Event :=
  let j := p.journey w
  (p.opening (w.notice p.unmatched)).1 :: (j.events ++ [(p.closing j.outcome j.stand.world).1])

/-- Writes events to a journal. -/
def record (p : Pipeline σ ρ) (es : List Event) (journal : ρ) : ρ :=
  es.foldl (fun journal e => p.recorder e journal) journal

theorem record_append (p : Pipeline σ ρ) (a b : List Event) (journal : ρ) :
    p.record (a ++ b) journal = p.record b (p.record a journal) := List.foldl_append

section Deal

variable {p : Pipeline σ ρ} {v : Visit σ} {s : Stand σ}

theorem deal_of_expired {violation : LimitViolation} (h : p.violation? s = some violation) :
    p.deal v s = (.expired, (Log.new v.key v.title).fail timeoutStatus violation.message, s) := by
  simp [deal, h]

theorem deal_of_heldBack (h : p.violation? s = none) {log : Log}
    (hheld : v.heldBack? s.logs = some log) : p.deal v s = (.heldBack, log, s) := by
  simp [deal, h, hheld]

theorem deal_of_clear (h : p.violation? s = none) (hclear : v.heldBack? s.logs = none) :
    p.deal v s =
      let x := dispatch p.registry p.context p.policy.limits v.unit v.title v.sect.values s.world
      (.invoked, x.1, ⟨x.2, s.tracker.recordStage, s.logs⟩) := by
  simp [deal, h, hclear]

/-- Everything that can become of a section. -/
theorem deal_cases (p : Pipeline σ ρ) (v : Visit σ) (s : Stand σ) :
    (∃ violation, p.violation? s = some violation) ∨
    (p.violation? s = none ∧ ∃ log, v.heldBack? s.logs = some log) ∨
    (p.violation? s = none ∧ v.heldBack? s.logs = none) := by
  cases p.violation? s with
  | some violation => exact .inl ⟨violation, rfl⟩
  | none =>
    cases v.heldBack? s.logs with
    | some log => exact .inr (.inl ⟨rfl, log, rfl⟩)
    | none => exact .inr (.inr ⟨rfl, rfl⟩)

theorem deal_logs (p : Pipeline σ ρ) (v : Visit σ) (s : Stand σ) :
    (p.deal v s).2.2.logs = s.logs := by
  rcases p.deal_cases v s with ⟨_, h⟩ | ⟨h, _, hheld⟩ | ⟨h, hclear⟩
  · rw [deal_of_expired h]
  · rw [deal_of_heldBack h hheld]
  · rw [deal_of_clear h hclear]

end Deal

theorem attend_logs (p : Pipeline σ ρ) (v : Visit σ) (s : Stand σ) :
    (p.attend v s).2.logs = s.logs ++ [(p.attend v s).1.log] := by
  simp [attend, deal_logs]

theorem walk_append (p : Pipeline σ ρ) (a b : List (Visit σ)) (s : Stand σ) :
    p.walk (a ++ b) s = (p.walk a s).andThen (p.walk b) := by
  induction a generalizing s with
  | nil => rfl
  | cons v a ih =>
    have hrest : p.walk (a ++ b) = fun s => (p.walk a s).andThen (p.walk b) := funext ih
    show (p.step v s).andThen (p.walk (a ++ b)) =
      ((p.step v s).andThen (p.walk a)).andThen (p.walk b)
    rw [hrest, Journey.andThen_assoc]

section Cons

variable {p : Pipeline σ ρ} {v : Visit σ} {s s' : Stand σ} {x : Attended σ}

theorem walk_cons_of_stops (h : v.stops = true) (rest : List (Visit σ)) (s : Stand σ) :
    p.walk (v :: rest) s = ⟨[], .stopped v.title, s⟩ := by
  have hstep : p.step v s = ⟨[], .stopped v.title, s⟩ := by simp [step, h]
  rw [walk, hstep]
  rfl

theorem walk_cons_of_ends (h : v.stops = false) (hx : p.attend v s = (x, s'))
    (hends : x.ends p.policy = true) (rest : List (Visit σ)) :
    p.walk (v :: rest) s = ⟨[x], .aborted v.index v.title, s'⟩ := by
  have hstep : p.step v s = ⟨[x], .aborted v.index v.title, s'⟩ := by simp [step, h, hx, hends]
  rw [walk, hstep]
  rfl

theorem walk_cons_of_onward (h : v.stops = false) (hx : p.attend v s = (x, s'))
    (hends : x.ends p.policy = false) (rest : List (Visit σ)) :
    p.walk (v :: rest) s =
      ⟨x :: (p.walk rest s').visited, (p.walk rest s').outcome, (p.walk rest s').stand⟩ := by
  have hstep : p.step v s = ⟨[x], .through, s'⟩ := by simp [step, h, hx, hends]
  rw [walk, hstep]
  rfl

/-- Everything that the first section of a route can do to a walk: stop it, end it, or let it go
on. -/
theorem walk_cons (p : Pipeline σ ρ) (v : Visit σ) (rest : List (Visit σ)) (s : Stand σ) :
    (v.stops = true ∧ p.walk (v :: rest) s = ⟨[], .stopped v.title, s⟩) ∨
    ∃ x s', p.attend v s = (x, s') ∧ v.stops = false ∧
      (x.ends p.policy = true ∧ p.walk (v :: rest) s = ⟨[x], .aborted v.index v.title, s'⟩ ∨
       x.ends p.policy = false ∧ p.walk (v :: rest) s =
        ⟨x :: (p.walk rest s').visited, (p.walk rest s').outcome, (p.walk rest s').stand⟩) := by
  cases hstops : v.stops with
  | true => exact .inl ⟨rfl, walk_cons_of_stops hstops rest s⟩
  | false =>
    refine .inr ⟨(p.attend v s).1, (p.attend v s).2, rfl, rfl, ?_⟩
    cases hends : (p.attend v s).1.ends p.policy with
    | true => exact .inl ⟨rfl, walk_cons_of_ends hstops rfl hends rest⟩
    | false => exact .inr ⟨rfl, walk_cons_of_onward hstops rfl hends rest⟩

/-- Every visited section was on the route, and it was visited. -/
theorem attend_of_mem_walk {route : List (Visit σ)} (h : x ∈ (p.walk route s).visited) :
    ∃ v ∈ route, ∃ s₁ s₂, p.attend v s₁ = (x, s₂) := by
  induction route generalizing s with
  | nil => cases h
  | cons v rest ih =>
    rcases p.walk_cons v rest s with ⟨-, hwalk⟩ | ⟨y, s', hy, -, hwalk⟩
    · rw [hwalk] at h
      cases h
    · have hmem : x = y ∨ x ∈ (p.walk rest s').visited := by
        rcases hwalk with ⟨-, hwalk⟩ | ⟨-, hwalk⟩
        · rw [hwalk] at h
          exact .inl (List.mem_singleton.mp h)
        · rw [hwalk] at h
          exact List.mem_cons.mp h
      rcases hmem with rfl | hmem
      · exact ⟨v, List.mem_cons_self, s, s', hy⟩
      · obtain ⟨u, hu, hattend⟩ := ih hmem
        exact ⟨u, List.mem_cons_of_mem v hu, hattend⟩

end Cons

theorem routeFrom_cons (p : Pipeline σ ρ) (index : Nat) (unit : Registered σ)
    (units : List (Registered σ)) : p.routeFrom index (unit :: units) =
      p.visitsOf index unit ++ p.routeFrom (index + 1) units := by
  simp [routeFrom]

theorem unit_of_mem_routeFrom {p : Pipeline σ ρ} {index : Nat} {units : List (Registered σ)}
    {v : Visit σ} (h : v ∈ p.routeFrom index units) : v.unit ∈ units := by
  obtain ⟨⟨unit, _⟩, hunit, hv⟩ := List.mem_flatMap.mp h
  obtain ⟨sect, -, rfl⟩ := List.mem_map.mp hv
  exact List.fst_mem_of_mem_zipIdx hunit

/-! ## Runs keep to the rule -/

/-- How the end of a walk shows in the state of a run. -/
def Shows : Outcome → RunState → Prop
  | .aborted index title, state => state = .abortedAt index title
  | _, state => state.isTerminal = false

/-- A run that was at `g` and is at `out` has gone as far as a walk. -/
structure Reaches (p : Pipeline σ ρ) (g : Progress σ ρ) (j : Journey σ)
    (out : Progress σ ρ × Flow) : Prop where
  stand : out.1.stand = j.stand
  journal : out.1.journal = p.record j.events g.journal
  flow : out.2 = j.outcome.flow
  state : Shows j.outcome out.1.state

variable {p : Pipeline σ ρ} {g : Progress σ ρ}

theorem Reaches.refl (h : g.state.isTerminal = false) :
    p.Reaches g ⟨[], .through, g.stand⟩ (g, .onward) :=
  ⟨rfl, rfl, rfl, h⟩

/-- A run that goes on has not ended, and neither has its walk. -/
theorem Reaches.open_of_onward {j : Journey σ} {out : Progress σ ρ × Flow} (h : p.Reaches g j out)
    (hflow : out.2 = .onward) : j.outcome = .through ∧ out.1.state.isTerminal = false := by
  have hj := h.flow
  have hstate := h.state
  rw [hflow] at hj
  cases houtcome : j.outcome with
  | through =>
    rw [houtcome] at hstate
    exact ⟨rfl, hstate⟩
  | stopped title => simp [houtcome, Outcome.flow] at hj
  | aborted index title => simp [houtcome, Outcome.flow] at hj

/-- A walk that may go on is followed by another one. -/
theorem Reaches.andThen {j : Journey σ} {next : Stand σ → Journey σ} {g₁ : Progress σ ρ}
    {out : Progress σ ρ × Flow} (h : p.Reaches g j (g₁, .onward))
    (hnext : p.Reaches g₁ (next g₁.stand) out) : p.Reaches g (j.andThen next) out := by
  rw [Journey.andThen_of_through (h.open_of_onward rfl).1, ← h.stand]
  refine ⟨hnext.stand, ?_, hnext.flow, hnext.state⟩
  rw [hnext.journal, h.journal, ← record_append]
  simp [Journey.events]

/-- A walk that may not go on is the whole walk. -/
theorem Reaches.andThen_of_ne {j : Journey σ} {out : Progress σ ρ × Flow} (h : p.Reaches g j out)
    (hflow : out.2 ≠ .onward) (next : Stand σ → Journey σ) : p.Reaches g (j.andThen next) out := by
  rw [Journey.andThen_of_ne]
  · exact h
  · intro hj
    exact hflow (by rw [h.flow, hj]; rfl)

theorem sectionLog_eq (v : Visit σ) : p.sectionLog v.unit v.sect g =
    let x := p.deal v g.stand
    (x.2.1, x.1 == .expired, { g with world := x.2.2.world, tracker := x.2.2.tracker }) := by
  rcases p.deal_cases v g.stand with ⟨violation, h⟩ | ⟨h, log, hheld⟩ | ⟨h, hclear⟩
  · rw [deal_of_expired h]
    change p.policy.limits.check (g.tracker.elapsedSeconds g.world.wallMillis) = _ at h
    simp only [sectionLog, h]
    rfl
  · rw [deal_of_heldBack h hheld]
    change p.policy.limits.check (g.tracker.elapsedSeconds g.world.wallMillis) = _ at h
    change heldBack? v.unit.key v.sect.title v.sect.values g.logs = _ at hheld
    simp only [sectionLog, invokeSection, h, hheld]
    rfl
  · rw [deal_of_clear h hclear]
    change p.policy.limits.check (g.tracker.elapsedSeconds g.world.wallMillis) = _ at h
    change heldBack? v.unit.key v.sect.title v.sect.values g.logs = _ at hclear
    simp only [sectionLog, invokeSection, h, hclear]
    rfl

theorem runSection_eq (v : Visit σ) : p.runSection v.index v.unit v.sect g =
    let x := p.attend v g.stand
    let g₁ : Progress σ ρ :=
      ⟨x.2.world, p.record x.1.events g.journal, x.2.tracker, g.state, x.2.logs⟩
    if x.1.ends p.policy then
      ({ g₁ with state := g.state.advance (.abortedAt v.index v.title) }, .aborted)
    else (g₁, .onward) := by
  unfold runSection
  simp only [sectionLog_eq]
  simp [attend, emit, Progress.stand, record, Attended.events, Attended.ends, Visit.key,
    Visit.title, deal_logs]

/-- **A section is run as the rule says.** -/
theorem reaches_runSection (v : Visit σ) (hstops : v.stops = false)
    (h : g.state.isTerminal = false) :
    p.Reaches g (p.step v g.stand) (p.runSection v.index v.unit v.sect g) := by
  rw [runSection_eq, step, hstops]
  obtain ⟨x, s⟩ := p.attend v g.stand
  cases hends : x.ends p.policy with
  | true =>
    refine ⟨?_, ?_, ?_, ?_⟩
    · simp [Progress.stand, hends]
    · simp [Journey.events, hends]
    · simp [Outcome.flow, hends]
    · simp [Shows, RunState.advance, h, hends]
  | false =>
    refine ⟨?_, ?_, ?_, ?_⟩
    · simp [Progress.stand, hends]
    · simp [Journey.events, hends]
    · simp [Outcome.flow, hends]
    · simpa [Shows, hends] using h

/-- One part of a run after another. -/
theorem Reaches.seq {j : Journey σ} {next : Stand σ → Journey σ} {out : Progress σ ρ × Flow}
    {rest : Progress σ ρ → Progress σ ρ × Flow}
    (hrest : ∀ g₁ : Progress σ ρ, g₁.state.isTerminal = false →
      p.Reaches g₁ (next g₁.stand) (rest g₁)) :
    p.Reaches g j out → p.Reaches g (j.andThen next) (match out with
      | (g₁, .onward) => rest g₁
      | (g₁, flow) => (g₁, flow)) := by
  intro h
  obtain ⟨g₁, flow⟩ := out
  cases flow with
  | onward => exact h.andThen (hrest g₁ (h.open_of_onward rfl).2)
  | stopped title => exact h.andThen_of_ne (by simp) next
  | aborted => exact h.andThen_of_ne (by simp) next

theorem reaches_visit (v : Visit σ) (hskip : v.sect.parts.qualifier ≠ some .skip)
    (h : g.state.isTerminal = false) :
    p.Reaches g (p.step v g.stand) (p.visit v.index v.unit v.sect g) := by
  unfold visit
  cases hq : v.sect.parts.qualifier with
  | none => exact reaches_runSection v (by simp [Visit.stops, hq]) h
  | some q =>
    cases q with
    | skip => exact absurd hq hskip
    | stop =>
      have hstops : v.stops = true := by simp [Visit.stops, hq]
      rw [step, hstops]
      exact ⟨rfl, rfl, rfl, h⟩

/-- **The sections of a stage are visited as the rule says.** -/
theorem reaches_walkSections (index : Nat) (unit : Registered σ) (ss : List Sections.Addressed)
    (h : g.state.isTerminal = false) :
    p.Reaches g
      (p.walk ((ss.filter fun s => s.parts.qualifier != some .skip).map fun s => ⟨index, unit, s⟩)
        g.stand)
      (p.walkSections index unit ss g) := by
  induction ss generalizing g with
  | nil => exact Reaches.refl h
  | cons s ss ih =>
    rw [walkSections]
    by_cases hskip : s.parts.qualifier = some .skip
    · have hvisit : p.visit index unit s g = (g, .onward) := by simp [visit, hskip]
      rw [hvisit, List.filter_cons_of_neg (by simp [hskip])]
      exact ih h
    · rw [List.filter_cons_of_pos (by simp [hskip]), List.map_cons]
      exact Reaches.seq (fun _ => ih) (reaches_visit ⟨index, unit, s⟩ hskip h)

/-- **The stages are visited as the rule says.** -/
theorem reaches_walkStages (index : Nat) (units : List (Registered σ))
    (h : g.state.isTerminal = false) :
    p.Reaches g (p.walk (p.routeFrom index units) g.stand) (p.walkStages index units g) := by
  induction units generalizing index g with
  | nil => exact Reaches.refl h
  | cons unit units ih =>
    have hrunning : g.state.advance (.running index) = .running index := by
      simp [RunState.advance, h]
    rw [walkStages, routeFrom_cons, walk_append, hrunning]
    -- That the stage is running shows in the state alone, of which the walk knows nothing.
    have hseq := Reaches.seq (fun _ => ih (index + 1))
      (reaches_walkSections (p := p) (g := { g with state := .running index }) index unit
        (p.context.config.visits unit.key) rfl)
    exact ⟨hseq.stand, hseq.journal, hseq.flow, hseq.state⟩

/-- The last state is that of the walk. -/
theorem advance_of_shows {outcome : Outcome} {state : RunState} (h : Shows outcome state) :
    state.advance .completed = outcome.state := by
  cases outcome with
  | aborted index title =>
    change state = .abortedAt index title at h
    rw [h]
    rfl
  | through =>
    change state.isTerminal = false at h
    rw [RunState.advance, h]
    rfl
  | stopped title =>
    change state.isTerminal = false at h
    rw [RunState.advance, h]
    rfl

/-- A run ends as its walk does. -/
theorem finish_eq {outcome : Outcome} (h : Shows outcome g.state) : p.finish g outcome.flow =
    ⟨(p.closing outcome g.world).2, p.recorder (p.closing outcome g.world).1 g.journal, g.tracker,
      outcome.state, g.logs⟩ := by
  simp only [finish, advance_of_shows h]
  cases outcome with
  | through => rfl
  | stopped title => rfl
  | aborted index title => rfl

/-- **A run is its walk**: the report and what is there at the end are those of the walk, and the
journal gets its events. -/
theorem run_eq (p : Pipeline σ ρ) (w : World σ) (journal : ρ) :
    p.run w journal =
      let j := p.journey w
      (⟨p.context.runId, p.policy.name, j.outcome.state, j.stand.logs⟩,
        ⟨(p.closing j.outcome j.stand.world).2, p.record (p.events w) journal, j.stand.tracker,
          j.outcome.state, j.stand.logs⟩) := by
  have h : p.Reaches (p.begin w journal) (p.journey w)
      (p.walkStages 0 p.registry.ordered (p.begin w journal)) :=
    reaches_walkStages 0 p.registry.ordered (g := p.begin w journal) rfl
  unfold run progress
  generalize p.walkStages 0 p.registry.ordered (p.begin w journal) = out at h ⊢
  obtain ⟨g, flow⟩ := out
  have hflow : flow = (p.journey w).outcome.flow := h.flow
  have hevents : p.record (p.events w) journal =
      p.recorder (p.closing (p.journey w).outcome (p.journey w).stand.world).1 g.journal := by
    rw [h.journal, events, record, List.foldl_cons, List.foldl_append]
    rfl
  have hfinish := finish_eq (p := p) (g := g) h.state
  rw [← hflow] at hfinish
  simp only [hfinish, hevents, report, ← h.stand]
  rfl

end Pipeline

end Qualification
