import Mathlib.Data.List.Induction
import Qualification.Proofs.Run.Record
import Qualification.Proofs.Run.Visited
/-!
# Runs and the records of their events

The record that is rebuilt from the events of a run is the run; and cut off before the last event,
it is the part of the run that was over by then.

* `Attended.Tells`, `tells_journey`: the events of a visited section;
* `Pipeline.KeepsAll`, `contents_record`: journals that lose nothing;
* `RunRecord.Tells`, `ofEvents?_events`: the record of all events;
* `ofEvents?_cut`: the record of the events so far;
* **`replay_run`**: the journal of a run gives the run back, and any beginning of it a beginning.
-/

namespace Qualification

variable {σ ρ : Type}

/-! ## The events of a section -/

/-- What the events of a visited section tell. -/
structure Attended.Tells (runId : Uuid) (x : Attended σ) : Prop where
  opened : x.opened.kind = .stageStarted
  closed : x.closed.kind = if x.log.succeeded then .stageCompleted else .stageFailed
  log : x.closed.log = some x.log
  place : ∀ e ∈ x.events,
    e.runId = runId ∧ e.stage = some x.visit.key ∧ e.stageIndex = some x.visit.index

namespace Attended.Tells

variable {runId : Uuid} {x : Attended σ}

theorem closed_or (h : x.Tells runId) :
    x.closed.kind = .stageCompleted ∨ x.closed.kind = .stageFailed := by
  rw [h.closed]
  cases x.log.succeeded with
  | true => exact .inl rfl
  | false => exact .inr rfl

/-- Neither event begins or ends a run. -/
theorem isInner (h : x.Tells runId) : ∀ e ∈ x.events, e.isFinal = false ∧ e.kind ≠ .runStarted := by
  intro e he
  have hkind : e.kind = .stageStarted ∨ e.kind = .stageCompleted ∨ e.kind = .stageFailed := by
    simp only [events, List.mem_cons, List.not_mem_nil, or_false] at he
    rcases he with rfl | rfl
    · exact .inl h.opened
    · exact .inr h.closed_or
  rcases hkind with hkind | hkind | hkind <;> simp [Event.isFinal, hkind]

/-- The log is told once. -/
theorem finishedLog (h : x.Tells runId) : x.events.filterMap Event.finishedLog? = [x.log] := by
  have hopened : x.opened.finishedLog? = none := by simp [Event.finishedLog?, h.opened]
  have hclosed : x.closed.finishedLog? = some x.log := by
    rw [Event.finishedLog?, if_pos h.closed_or, h.log]
  rw [events, List.filterMap_cons_none hopened, List.filterMap_cons_some hclosed,
    List.filterMap_nil]

end Attended.Tells

namespace Pipeline

/-- The event of a log says by its kind whether the section succeeded. -/
theorem logEvent_eq (p : Pipeline σ ρ) (key : String) (index : Nat) (title : String) (log : Log) :
    ∃ summary, p.logEvent key index title log =
      p.event (if log.succeeded then .stageCompleted else .stageFailed) summary (some (key, index))
        (some log) none := by
  unfold logEvent
  cases log.succeeded with
  | true => exact ⟨_, rfl⟩
  | false => exact ⟨_, rfl⟩

theorem tells_attend {p : Pipeline σ ρ} {v : Visit σ} {s s' : Stand σ} {x : Attended σ}
    (h : p.attend v s = (x, s')) : x.Tells p.context.runId := by
  obtain rfl : (p.attend v s).1 = x := by rw [h]
  obtain ⟨summary, hclosed⟩ := p.logEvent_eq v.key v.index v.title (p.attend v s).1.log
  have hevent : ∃ w, (p.attend v s).1.closed = (p.event
      (if (p.attend v s).1.log.succeeded then .stageCompleted else .stageFailed) summary
      (some (v.key, v.index)) (some (p.attend v s).1.log) none w).1 :=
    ⟨_, by rw [← hclosed]; rfl⟩
  obtain ⟨w, hevent⟩ := hevent
  refine ⟨rfl, by rw [hevent]; rfl, by rw [hevent]; rfl, ?_⟩
  intro e he
  simp only [Attended.events, List.mem_cons, List.not_mem_nil, or_false] at he
  rcases he with rfl | rfl
  · exact ⟨rfl, rfl, rfl⟩
  · rw [hevent]
    exact ⟨rfl, rfl, rfl⟩

theorem tells_journey {p : Pipeline σ ρ} {w : World σ} {x : Attended σ}
    (h : x ∈ (p.journey w).visited) : x.Tells p.context.runId := by
  obtain ⟨_, _, _, _, hx⟩ := attend_of_mem_walk h
  exact tells_attend hx

/-- No event between the first and the last one of a run begins or ends it. -/
theorem isInner_journey {p : Pipeline σ ρ} {w : World σ} {e : Event}
    (h : e ∈ (p.journey w).events) : e.isFinal = false ∧ e.kind ≠ .runStarted := by
  obtain ⟨x, hx, he⟩ := List.mem_flatMap.mp h
  exact (tells_journey hx).isInner e he

/-- The events of a run tell its logs. -/
theorem finishedLog_journey (p : Pipeline σ ρ) (w : World σ) :
    (p.journey w).events.filterMap Event.finishedLog? = (p.journey w).stand.logs := by
  have hlogs : (p.journey w).stand.logs = (p.journey w).visited.map Attended.log :=
    p.logs_walk p.route (p.outset w)
  rw [hlogs, Journey.events, List.filterMap_flatMap, List.map_eq_flatMap]
  exact List.flatMap_congr fun x hx => (tells_journey hx).finishedLog

end Pipeline

/-! ## Records -/

/-- Whether a record gives a run back. -/
structure RunRecord.Tells (r : RunRecord) (report : RunReport) : Prop where
  id : r.id = report.runId
  name : r.name = report.name
  state : r.state = report.state
  logs : r.logs = report.logs
  completed : r.completedAt.isSome = true

namespace Pipeline

/-- The record of the first event. -/
def firstRecord (p : Pipeline σ ρ) (w : World σ) : RunRecord :=
  ⟨p.context.runId, p.policy.name, .notStarted, w.instant, none, []⟩

theorem ofEvents?_opening (p : Pipeline σ ρ) (w : World σ) (es : List Event) :
    RunRecord.ofEvents? ((p.opening (w.notice p.unmatched)).1 :: es) =
      some (es.foldl RunRecord.apply (p.firstRecord w)) := rfl

/-- The last event of a run ends its record as the run ended. -/
theorem apply_closing (p : Pipeline σ ρ) {r : RunRecord} (hr : r.state.isTerminal = false)
    (outcome : Outcome) (w : World σ) : r.apply (p.closing outcome w).1 =
      { r with state := outcome.state, completedAt := some w.instant } := by
  cases outcome with
  | through => exact RunRecord.apply_of_completed hr rfl
  | stopped title => exact RunRecord.apply_of_completed hr rfl
  | aborted index title => exact RunRecord.apply_of_aborted hr rfl rfl rfl

/-- **The record of all events of a run is the run.** -/
theorem ofEvents?_events (p : Pipeline σ ρ) (w : World σ) (journal : ρ) :
    ∃ r, RunRecord.ofEvents? (p.events w) = some r ∧ r.Tells (p.run w journal).1 := by
  let j := p.journey w
  have hinner :
      (p.firstRecord w).After j.events (j.events.foldl RunRecord.apply (p.firstRecord w)) :=
    RunRecord.after_foldl rfl fun e he => (isInner_journey he).1
  have hopen : (j.events.foldl RunRecord.apply (p.firstRecord w)).state.isTerminal = false := by
    rw [hinner.state]
    exact RunRecord.isTerminal_lastState rfl j.events
  refine ⟨_, p.ofEvents?_opening w _, ?_⟩
  rw [List.foldl_append, List.foldl_cons, List.foldl_nil, p.apply_closing hopen, run_eq]
  exact ⟨hinner.id, hinner.name fun e he => (isInner_journey he).2, rfl,
    hinner.logs.trans (p.finishedLog_journey w), rfl⟩

/-- **The record of the events so far**: the run is under way, in the last stage that began, and the
logs so far are there. -/
theorem ofEvents?_cut (p : Pipeline σ ρ) (w : World σ) (journal : ρ) {es : List Event}
    (h : es <+: p.events w) (hne : es ≠ []) (hproper : es ≠ p.events w) :
    ∃ r, RunRecord.ofEvents? es = some r ∧ r.isRunning = true ∧
      r.logs <+: (p.run w journal).1.logs ∧ r.state = RunRecord.lastState .notStarted es := by
  obtain ⟨first, inner, rfl⟩ := List.exists_cons_of_ne_nil hne
  obtain ⟨rfl, hinner⟩ := List.cons_prefix_cons.mp h
  -- What is cut off holds the last event, so that what is left ends before it.
  replace hinner : inner <+: (p.journey w).events := by
    rcases List.prefix_concat_iff.mp hinner with hall | hinner
    · exact absurd (congrArg _ hall) hproper
    · exact hinner
  have hafter : (p.firstRecord w).After inner (inner.foldl RunRecord.apply (p.firstRecord w)) :=
    RunRecord.after_foldl rfl fun e he => (isInner_journey (hinner.subset he)).1
  have hlogs : (p.run w journal).1.logs = (p.journey w).stand.logs := by rw [run_eq]
  refine ⟨_, p.ofEvents?_opening w inner, ?_, ?_, hafter.state⟩
  · rw [RunRecord.isRunning, hafter.state, RunRecord.isTerminal_lastState rfl]
    rfl
  · rw [hafter.logs, hlogs, ← finishedLog_journey]
    exact hinner.filterMap _

/-! ## Journals that lose nothing -/

/-- Whether every event that a run writes comes to the end of its journal, of which `contents` are
the events. -/
def KeepsAll (p : Pipeline σ ρ) (contents : ρ → List Event) (w : World σ) (journal : ρ) : Prop :=
  ∀ before e, before ++ [e] <+: p.events w →
    contents (p.recorder e (p.record before journal)) = contents (p.record before journal) ++ [e]

theorem contents_record {p : Pipeline σ ρ} {contents : ρ → List Event} {w : World σ} {journal : ρ}
    (h : p.KeepsAll contents w journal) {es : List Event} (hes : es <+: p.events w) :
    contents (p.record es journal) = contents journal ++ es := by
  induction es using List.reverseRecOn with
  | nil => exact (List.append_nil _).symm
  | append_singleton before e ih =>
    have hbefore : before <+: p.events w := (List.prefix_append before [e]).trans hes
    rw [record_append]
    show contents (p.recorder e (p.record before journal)) = _
    rw [h before e hes, ih hbefore, List.append_assoc]

/-- **The journal of a run gives the run back**, if no event is lost: the record of the events that
the run wrote is the run. After each of them but the last one the record is under way, with the
first of the logs, and in the last stage that began. -/
theorem replay_run (p : Pipeline σ ρ) (contents : ρ → List Event) (w : World σ) (journal : ρ)
    (h : p.KeepsAll contents w journal) :
    let (report, g) := p.run w journal
    ∃ es, contents g.journal = contents journal ++ es ∧
      (∃ r, RunRecord.ofEvents? es = some r ∧ r.Tells report) ∧
      ∀ part, part <+: es → part ≠ [] → part ≠ es →
        ∃ r, RunRecord.ofEvents? part = some r ∧ r.isRunning = true ∧ r.logs <+: report.logs ∧
          r.state = RunRecord.lastState .notStarted part := by
  have hjournal : (p.run w journal).2.journal = p.record (p.events w) journal := by rw [run_eq]
  refine ⟨p.events w, ?_, p.ofEvents?_events w journal, fun part => p.ofEvents?_cut w journal⟩
  exact (congrArg contents hjournal).trans (contents_record h List.prefix_rfl)

/-- A run that fails in its second section, and what is known of it after four of its events. -/
theorem replay_run_fourSections :
    let p : Pipeline Unit (List Event) := fourSections fun e es => es ++ [e]
    let (report, g) := p.run (World.start () ⟨0, 0⟩ false) []
    p.KeepsAll id (World.start () ⟨0, 0⟩ false) [] ∧
    g.journal.map Event.kind =
      [.runStarted, .stageStarted, .stageCompleted, .stageStarted, .stageFailed, .runAborted] ∧
    (∃ r, RunRecord.ofEvents? g.journal = some r ∧ r.Tells report) ∧
    ∃ r, RunRecord.ofEvents? (g.journal.take 4) = some r ∧ r.isRunning = true ∧
      r.logs <+: report.logs ∧ r.state = .running 0 := by
  have hkeeps : (fourSections fun e es => es ++ [e]).KeepsAll id (World.start () ⟨0, 0⟩ false) [] :=
    fun _ _ _ => rfl
  have hkinds : ((fourSections fun e es => es ++ [e]).run
      (World.start () ⟨0, 0⟩ false) []).2.journal.map Event.kind =
      [.runStarted, .stageStarted, .stageCompleted, .stageStarted, .stageFailed, .runAborted] := by
    decide +kernel
  have hstate : RunRecord.lastState .notStarted (((fourSections fun e es => es ++ [e]).run
      (World.start () ⟨0, 0⟩ false) []).2.journal.take 4) = .running 0 := by decide +kernel
  obtain ⟨es, hes, hrecord, hcut⟩ := replay_run _ id _ _ hkeeps
  obtain rfl : _ = es := hes
  obtain ⟨r, hr, hrunning, hlogs, hr'⟩ := hcut _ (List.take_prefix 4 _) (by decide +kernel)
    (by decide +kernel)
  exact ⟨hkeeps, hkinds, hrecord, r, hr, hrunning, hlogs, hr'.trans hstate⟩

end Pipeline

end Qualification
