import Qualification.Proofs.Run.Position
import Qualification.Proofs.Run.Replay
/-!
# The chronicle of a run

The events that a run hands to its journal: one that begins it, two for each log of the report, and
one that ends it. What the journal makes of them, and whether it takes them, has no part in the run.

* `Recorder.noting`, `Recorder.failing`: a journal that notes what it is handed, and one that some
  events do not get into;
* `run_recordedBy`: the run with another journal;
* `RunState.EndedBy`, `Pipeline.Chronicle`: the shape of the events;
* **`chronicle_run`**: a run hands over its chronicle, whatever becomes of the events.
-/

namespace Qualification

variable {σ ρ ρ' : Type}

/-! ## Journals -/

namespace Recorder

/-- The recorder with a note of every event that is handed to it. -/
def noting (recorder : Recorder ρ) : Recorder (List Event × ρ) := fun e (handed, journal) =>
  (handed ++ [e], recorder e journal)

/-- The recorder with failures: the events are counted, and those with some numbers are lost. -/
def failing (recorder : Recorder ρ) (fails : Nat → Bool) : Recorder (Nat × ρ) :=
  fun e (count, journal) => (count + 1, if fails count then journal else recorder e journal)

/-- The events that are not lost, the first of which has a number. -/
def kept (fails : Nat → Bool) (count : Nat) (es : List Event) : List Event :=
  ((es.zipIdx count).filter fun e => !fails e.2).map Prod.fst

end Recorder

/-- What is there at the end of a run, with another journal. -/
def Progress.withJournal (g : Progress σ ρ) (journal : ρ') : Progress σ ρ' := { g with journal }

namespace Pipeline

/-- The pipeline with another journal. -/
def recordedBy (p : Pipeline σ ρ) (recorder : Recorder ρ') : Pipeline σ ρ' :=
  { p with recorder := recorder }

variable (p : Pipeline σ ρ)

theorem record_noting (es handed : List Event) (journal : ρ) :
    (p.recordedBy p.recorder.noting).record es (handed, journal) =
      (handed ++ es, p.record es journal) := by
  induction es generalizing handed journal with
  | nil => exact congrArg (·, journal) (List.append_nil handed).symm
  | cons e es ih =>
    show (p.recordedBy p.recorder.noting).record es (handed ++ [e], p.recorder e journal) = _
    rw [ih, List.append_assoc]
    rfl

theorem record_failing (fails : Nat → Bool) (es : List Event) (count : Nat) (journal : ρ) :
    (p.recordedBy (p.recorder.failing fails)).record es (count, journal) =
      (count + es.length, p.record (Recorder.kept fails count es) journal) := by
  induction es generalizing count journal with
  | nil => rfl
  | cons e es ih =>
    show (p.recordedBy (p.recorder.failing fails)).record es
      (count + 1, if fails count then journal else p.recorder e journal) = _
    have hlength : count + 1 + es.length = count + (e :: es).length := by
      rw [List.length_cons, Nat.add_right_comm, Nat.add_assoc]
    rw [ih, hlength]
    cases hfails : fails count with
    | true => simp [Recorder.kept, hfails]
    | false =>
      simp only [Recorder.kept, List.zipIdx_cons, hfails, Bool.not_false, List.filter_cons_of_pos,
        List.map_cons, Bool.false_eq_true, if_false]
      rfl

/-! ## Runs with another journal -/

theorem walk_recordedBy (recorder : Recorder ρ') (route : List (Visit σ)) (s : Stand σ) :
    (p.recordedBy recorder).walk route s = p.walk route s := by
  induction route generalizing s with
  | nil => rfl
  | cons v rest ih =>
    show (p.step v s).andThen ((p.recordedBy recorder).walk rest) =
      (p.step v s).andThen (p.walk rest)
    rw [funext ih]

theorem journey_recordedBy (recorder : Recorder ρ') (w : World σ) :
    (p.recordedBy recorder).journey w = p.journey w := p.walk_recordedBy recorder p.route _

theorem events_recordedBy (recorder : Recorder ρ') (w : World σ) :
    (p.recordedBy recorder).events w = p.events w := by
  unfold events
  rw [journey_recordedBy]
  rfl

/-- **The journal has no part in a run**: with another one the run is the same, and hands over the
same events. -/
theorem run_recordedBy (recorder : Recorder ρ') (w : World σ) (journal : ρ) (journal' : ρ') :
    (p.recordedBy recorder).run w journal' = ((p.run w journal).1,
      (p.run w journal).2.withJournal
        ((p.recordedBy recorder).record (p.events w) journal')) := by
  rw [run_eq, run_eq, journey_recordedBy, events_recordedBy]
  rfl

/-- A run that notes the events notes its own, whatever journal they are handed to. -/
theorem run_noting (recorder : Recorder ρ') (w : World σ) (journal : ρ) (journal' : ρ') :
    (p.recordedBy recorder.noting).run w ([], journal') = ((p.run w journal).1,
      (p.run w journal).2.withJournal
        (p.events w, (p.recordedBy recorder).record (p.events w) journal')) := by
  rw [p.run_recordedBy recorder.noting w journal]
  exact congrArg (fun journal' => (_, Progress.withJournal _ journal'))
    ((p.recordedBy recorder).record_noting (p.events w) [] journal')

end Pipeline

/-! ## The shape of the events -/

/-- Whether an event tells that a run ended in a state. -/
def RunState.EndedBy : RunState → Event → Prop
  | abortedAt index title, e =>
    e.kind = .runAborted ∧ e.stageIndex = some index ∧ e.stage = some title
  | completed, e => e.kind = .runCompleted
  | _, _ => False

namespace Pipeline

/-- What the events of a run with a report are, of which `xs` are the visited sections. -/
structure Chronicle (p : Pipeline σ ρ) (report : RunReport) (xs : List (Attended σ))
    (es : List Event) : Prop where
  run : report.runId = p.context.runId
  logs : report.logs = xs.map Attended.log
  /-- One event begins the run, two are there for each log, and one ends the run. -/
  shape : ∃ first last, es = first :: (xs.flatMap Attended.events ++ [last]) ∧
    first.kind = .runStarted ∧ report.state.EndedBy last
  /-- The two events of a log tell its section's stage and index, and the second one the log. -/
  sections : ∀ x ∈ xs, x.Tells report.runId
  stages : ∀ x ∈ xs, p.registry.ordered[x.visit.index]? = some x.visit.unit
  ascending : (xs.map fun x => x.visit.index).Pairwise (· ≤ ·)
  runId : ∀ e ∈ es, e.runId = report.runId

variable (p : Pipeline σ ρ)

theorem endedBy_closing (outcome : Outcome) (w : World σ) :
    outcome.state.EndedBy (p.closing outcome w).1 := by
  cases outcome with
  | through => rfl
  | stopped title => rfl
  | aborted index title => exact ⟨rfl, rfl, rfl⟩

theorem runId_closing (outcome : Outcome) (w : World σ) :
    (p.closing outcome w).1.runId = p.context.runId := by
  cases outcome <;> rfl

theorem runId_events {w : World σ} {e : Event} (h : e ∈ p.events w) :
    e.runId = p.context.runId := by
  rcases List.mem_cons.mp h with rfl | h
  · rfl
  · rcases List.mem_append.mp h with h | h
    · obtain ⟨x, hx, he⟩ := List.mem_flatMap.mp h
      exact ((tells_journey hx).place e he).1
    · rw [List.mem_singleton.mp h]
      exact p.runId_closing _ _

theorem chronicle_events (w : World σ) (journal : ρ) :
    p.Chronicle (p.run w journal).1 (p.journey w).visited (p.events w) where
  run := rfl
  logs := p.logs_run w journal
  shape := by
    refine ⟨_, _, rfl, rfl, ?_⟩
    rw [run_eq]
    exact p.endedBy_closing _ _
  sections := fun x => tells_journey
  stages := fun x => ordered_journey
  ascending := p.ascending_journey w
  runId := fun e => p.runId_events

/-- **A run hands its chronicle to its journal.** The events are one that begins the run, then for
each log of the report one that begins its section and one that carries the log, and one that ends
the run as the report says. Whatever journal they are handed to, the report and the events are the
same; and if some of them are lost, the journal gets the others. The events of a log tell the stage
of its section, which is the one that the log is under if the plugin left that alone. -/
theorem chronicle_run (w : World σ) (journal : ρ) :
    let (report, g) := p.run w journal
    ∃ es, p.Chronicle report (p.journey w).visited es ∧ g.journal = p.record es journal ∧
      (∀ (ρ' : Type) (recorder : Recorder ρ') (journal' : ρ'),
        (p.recordedBy recorder.noting).run w ([], journal') =
          (report, g.withJournal (es, (p.recordedBy recorder).record es journal'))) ∧
      (∀ fails, (p.recordedBy (p.recorder.failing fails).noting).run w ([], 0, journal) =
        (report, g.withJournal (es, es.length, p.record (Recorder.kept fails 0 es) journal))) ∧
      ∀ x ∈ (p.journey w).visited, x.KeepsLabels p.registry →
        x.log.IsOf x.visit.key x.visit.title ∧ ∀ e ∈ x.events, e.stage = some x.log.stage := by
  have hjournal : (p.run w journal).2.journal = p.record (p.events w) journal := by rw [run_eq]
  refine ⟨p.events w, p.chronicle_events w journal, hjournal,
    fun ρ' recorder => p.run_noting recorder w journal, fun fails => ?_, fun x hx hkeeps => ?_⟩
  · have hkept := p.record_failing fails (p.events w) 0 journal
    rw [Nat.zero_add] at hkept
    rw [p.run_noting _ w journal, hkept]
    rfl
  · have hlog := labelled_journey hx hkeeps
    refine ⟨hlog, fun e he => ?_⟩
    rw [hlog.stage]
    exact ((tells_journey hx).place e he).2.1

/-- The second of six events is lost; the run is the same. -/
theorem chronicle_run_fourSections :
    let p : Pipeline Unit (List Event) := fourSections fun e es => es ++ [e]
    let w : World Unit := World.start () ⟨0, 0⟩ false
    let (report, g) := p.run w []
    p.Chronicle report (p.journey w).visited g.journal ∧ report.state = .abortedAt 0 "A:3" ∧
      g.journal.map Event.kind =
        [.runStarted, .stageStarted, .stageCompleted, .stageStarted, .stageFailed, .runAborted] ∧
      (p.recordedBy (p.recorder.failing fun n => n == 1).noting).run w ([], 0, []) =
        (report, g.withJournal (g.journal, 6, g.journal.eraseIdx 1)) ∧
      ∀ x ∈ (p.journey w).visited, x.KeepsLabels p.registry ∧
        ∀ e ∈ x.events, e.stage = some x.log.stage := by
  intro p w
  have hp : p.registry.KeepsLabels :=
    (Registry.Every.new _).register _ _ (Plugin.keepsLabels_failing _)
  obtain ⟨es, hes, hjournal, -, hfails, hlabels⟩ := p.chronicle_run w []
  have hall : ∀ es : List Event, p.record es [] = es := by
    intro es
    induction es using List.reverseRecOn with
    | nil => rfl
    | append_singleton es e ih =>
      exact (p.record_append es [e] []).trans (congrArg (· ++ [e]) ih)
  obtain rfl : (p.run w []).2.journal = es := hjournal.trans (hall es)
  have hkinds : ((fourSections fun e es => es ++ [e]).run
      (World.start () ⟨0, 0⟩ false) []).2.journal.map Event.kind =
      [.runStarted, .stageStarted, .stageCompleted, .stageStarted, .stageFailed, .runAborted] := by
    decide +kernel
  have hlost : Recorder.kept (fun n => n == 1) 0 ((fourSections fun e es => es ++ [e]).run
      (World.start () ⟨0, 0⟩ false) []).2.journal = ((fourSections fun e es => es ++ [e]).run
      (World.start () ⟨0, 0⟩ false) []).2.journal.eraseIdx 1 := by
    decide +kernel
  refine ⟨hes, rfl, hkinds, ?_, fun x hx => ?_⟩
  · rw [hfails, hall, hlost]
    rfl
  · have hkeeps := keepsLabels_journey hp hx
    exact ⟨hkeeps, (hlabels x hx hkeeps).2⟩

/-- The events of a log that its plugin has put under another stage tell another one than it. -/
theorem stages_of_relabelled :
    let p : Pipeline Unit (List Event) := relabelled fun e es => es ++ [e]
    let (report, g) := p.run (World.start () ⟨0, 0⟩ false) []
    report.logs.map Log.stage = ["B"] ∧
      p.registry.ordered.map Registered.key = ["A"] ∧
      g.journal.map (fun e => (e.kind, e.stage)) = [(.runStarted, none), (.stageStarted, some "A"),
        (.stageFailed, some "A"), (.runAborted, some "A")] ∧
      ∃ e ∈ g.journal, ∃ log ∈ e.log, e.stage ≠ some log.stage := by
  decide +kernel

end Pipeline

end Qualification
