import Qualification.Run.Record
/-!
# Records of lists of events

What the record of a run holds after events, as a reading of the whole list: the last index at which
a stage began, and all logs.

* `Event.startedIndex?`, `Event.finishedLog?`, `Event.isFinal`: what a record takes from an event;
* `RunRecord.lastState`: the state that events without a final one tell;
* `RunRecord.After`: a record after such events; `apply_of_open`, `after_apply`, `After.trans`;
* **`after_foldl`**: the record after events of which none is final;
* `apply_of_completed`, `apply_of_aborted`: the record after a final one.
-/

namespace Qualification

namespace Event

/-- The index of the stage that begins. -/
def startedIndex? (e : Event) : Option Nat :=
  if e.kind = .stageStarted then e.stageIndex else none

/-- The log of the section that ended. -/
def finishedLog? (e : Event) : Option Log :=
  if e.kind = .stageCompleted ∨ e.kind = .stageFailed then e.log else none

/-- Whether the run is over. -/
def isFinal (e : Event) : Bool := e.kind == .runCompleted || e.kind == .runAborted

end Event

namespace RunRecord

/-! ## The state that events tell -/

/-- The state after events, of which none is final. -/
def lastState (state : RunState) (es : List Event) : RunState :=
  ((es.filterMap Event.startedIndex?).getLast?.map RunState.running).getD state

theorem isTerminal_lastState {state : RunState} (h : state.isTerminal = false) (es : List Event) :
    (lastState state es).isTerminal = false := by
  unfold lastState
  cases (es.filterMap Event.startedIndex?).getLast? with
  | none => exact h
  | some i => rfl

theorem lastState_append (state : RunState) (a b : List Event) :
    lastState state (a ++ b) = lastState (lastState state a) b := by
  unfold lastState
  rw [List.filterMap_append, List.getLast?_append]
  cases (b.filterMap Event.startedIndex?).getLast? <;> rfl

/-! ## Records after events -/

/-- What a record is after events of which none is final: nothing is lost, the last stage that began
is running, and all logs are there. -/
structure After (r : RunRecord) (es : List Event) (s : RunRecord) : Prop where
  id : s.id = r.id
  name : (∀ e ∈ es, e.kind ≠ .runStarted) → s.name = r.name
  state : s.state = lastState r.state es
  completedAt : s.completedAt = r.completedAt
  logs : s.logs = r.logs ++ es.filterMap Event.finishedLog?

theorem after_nil (r : RunRecord) : r.After [] r := ⟨rfl, fun _ => rfl, rfl, rfl, by simp⟩

theorem After.trans {r s t : RunRecord} {a b : List Event} (h : r.After a s) (h' : s.After b t) :
    r.After (a ++ b) t where
  id := h'.id.trans h.id
  name := fun hkind => (h'.name fun e he => hkind e (List.mem_append_right _ he)).trans
    (h.name fun e he => hkind e (List.mem_append_left _ he))
  state := by rw [h'.state, h.state, lastState_append]
  completedAt := h'.completedAt.trans h.completedAt
  logs := by rw [h'.logs, h.logs, List.filterMap_append, List.append_assoc]

/-- Everything that an event that is not final does to a record. -/
theorem apply_of_open {r : RunRecord} {e : Event} (hr : r.state.isTerminal = false)
    (he : e.isFinal = false) : r.apply e = { r with
      name := if e.kind = .runStarted then e.summary else r.name
      startedAt := if e.kind = .runStarted then e.timestamp else r.startedAt
      state := (e.startedIndex?.map RunState.running).getD r.state
      logs := r.logs ++ e.finishedLog?.toList } := by
  cases hk : e.kind with
  | runStarted => simp [apply, hk, Event.startedIndex?, Event.finishedLog?]
  | runCompleted => simp [Event.isFinal, hk] at he
  | runAborted => simp [Event.isFinal, hk] at he
  | stageStarted =>
    cases hi : e.stageIndex with
    | none => simp [apply, hk, hi, Event.startedIndex?, Event.finishedLog?]
    | some i => simp [apply, hk, hi, Event.startedIndex?, Event.finishedLog?, RunState.advance, hr]
  | stageCompleted =>
    cases hl : e.log with
    | none => simp [apply, hk, hl, Event.startedIndex?, Event.finishedLog?]
    | some log => simp [apply, hk, hl, Event.startedIndex?, Event.finishedLog?]
  | stageFailed =>
    cases hl : e.log with
    | none => simp [apply, hk, hl, Event.startedIndex?, Event.finishedLog?]
    | some log => simp [apply, hk, hl, Event.startedIndex?, Event.finishedLog?]

theorem after_apply {r : RunRecord} {e : Event} (hr : r.state.isTerminal = false)
    (he : e.isFinal = false) : r.After [e] (r.apply e) := by
  rw [apply_of_open hr he]
  refine ⟨rfl, ?_, ?_, rfl, ?_⟩
  · intro hkind
    exact if_neg (hkind e List.mem_cons_self)
  · unfold lastState
    cases h : e.startedIndex? with
    | none => simp [h]
    | some i => simp [h]
  · cases h : e.finishedLog? with
    | none => simp [h]
    | some log => simp [h]

/-- **The record after events of which none is final.** -/
theorem after_foldl {r : RunRecord} {es : List Event} (hr : r.state.isTerminal = false)
    (hes : ∀ e ∈ es, e.isFinal = false) : r.After es (es.foldl apply r) := by
  induction es generalizing r with
  | nil => exact r.after_nil
  | cons e es ih =>
    obtain ⟨he, hes⟩ := List.forall_mem_cons.mp hes
    have hfirst : r.After [e] (r.apply e) := after_apply hr he
    have hopen : (r.apply e).state.isTerminal = false := by
      rw [hfirst.state]
      exact isTerminal_lastState hr [e]
    exact hfirst.trans (ih hopen hes)

/-! ## Final events -/

theorem apply_of_completed {r : RunRecord} {e : Event} (hr : r.state.isTerminal = false)
    (hk : e.kind = .runCompleted) :
    r.apply e = { r with state := .completed, completedAt := some e.timestamp } := by
  simp [apply, hk, finish, hr]

theorem apply_of_aborted {r : RunRecord} {e : Event} (hr : r.state.isTerminal = false)
    (hk : e.kind = .runAborted) {index : Nat} (hindex : e.stageIndex = some index) {title : String}
    (htitle : e.stage = some title) :
    r.apply e = { r with state := .abortedAt index title, completedAt := some e.timestamp } := by
  simp [apply, hk, finish, hr, hindex, htitle]

end RunRecord

end Qualification
