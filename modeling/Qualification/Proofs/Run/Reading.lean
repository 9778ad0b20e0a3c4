import Qualification.Proofs.Run.Record
/-!
# What any events tell

Events may be cut off, doubled or out of order. Their record is a reading of the list all the same:
the first final event settles how the run ended and when, and without one the last stage that began
is running; the name, the beginning and the logs are taken from the whole list.

* `Event.finalState?`: the final state that an event tells;
* `RunRecord.retold`, `RunRecord.reading`: a record with what events tell on top of it, after its
  end and before;
* `apply_of_closed`, `apply_eq_reading`: the record after an event, after its end and before;
* `foldl_apply`, **`ofEvents?_eq`**: the record of events is their reading;
* **`settled_record`**: how the record of any events is settled.
-/

namespace Qualification

namespace Event

/-- The final state that an event tells. -/
def finalState? (e : Event) : Option RunState :=
  match e.kind with
  | .runCompleted => some .completed
  | .runAborted => some (.abortedAt (e.stageIndex.getD 0) (e.stage.getD ""))
  | _ => none

variable {e : Event}

theorem isSome_finalState? (e : Event) : e.finalState?.isSome = e.isFinal := by
  unfold finalState? isFinal
  cases e.kind <;> rfl

theorem isTerminal_of_finalState? {state : RunState} (h : e.finalState? = some state) :
    state.isTerminal = true := by
  unfold finalState? at h
  split at h
  · cases h
    rfl
  · cases h
    rfl
  · cases h

end Event

namespace RunRecord

/-! ## Readings -/

/-- The last event that begins a run. -/
def lastStart? (es : List Event) : Option Event :=
  (es.filter fun e => e.kind = .runStarted).getLast?

/-- A record that is over, with what events tell on top of it. -/
def retold (r : RunRecord) (es : List Event) : RunRecord :=
  { r with
    name := ((lastStart? es).map Event.summary).getD r.name
    startedAt := ((lastStart? es).map Event.timestamp).getD r.startedAt
    logs := r.logs ++ es.filterMap Event.finishedLog? }

/-- A record that is under way, with what events tell on top of it. -/
def reading (r : RunRecord) (es : List Event) : RunRecord :=
  { r.retold es with
    state := (es.findSome? Event.finalState?).getD (lastState r.state es)
    completedAt := ((es.find? Event.isFinal).map Event.timestamp).or r.completedAt }

theorem retold_append (r : RunRecord) (a b : List Event) :
    (r.retold a).retold b = r.retold (a ++ b) := by
  have hstart : lastStart? (a ++ b) = (lastStart? b).or (lastStart? a) := by
    rw [lastStart?, List.filter_append, List.getLast?_append]
    rfl
  unfold retold
  rw [hstart, List.filterMap_append, List.append_assoc]
  cases lastStart? b <;> rfl

theorem findSome?_finalState? {es : List Event} (h : ∀ e ∈ es, e.isFinal = false) :
    es.findSome? Event.finalState? = none := by
  refine List.findSome?_eq_none_iff.mpr fun e he => ?_
  rw [← Option.not_isSome_iff_eq_none, Event.isSome_finalState?, h e he]
  exact Bool.false_ne_true

theorem find?_isFinal {es : List Event} (h : ∀ e ∈ es, e.isFinal = false) :
    es.find? Event.isFinal = none :=
  List.find?_eq_none.mpr fun e he => by simp [h e he]

/-- As long as no event is final, one reading goes on with another one. -/
theorem reading_append_of_open (r : RunRecord) {a : List Event} (h : ∀ e ∈ a, e.isFinal = false)
    (b : List Event) : (r.reading a).reading b = r.reading (a ++ b) := by
  unfold reading
  rw [← retold_append, List.findSome?_append, List.find?_append, findSome?_finalState? h,
    find?_isFinal h, lastState_append]
  rfl

/-- **After a final event** neither the state nor the time of the end is read any more. -/
theorem reading_append_of_final (r : RunRecord) {e : Event} {a : List Event} (he : e ∈ a)
    (hfinal : e.isFinal = true) (b : List Event) : (r.reading a).retold b = r.reading (a ++ b) := by
  obtain ⟨state, hstate⟩ : ∃ state, a.findSome? Event.finalState? = some state := by
    rw [← Option.isSome_iff_exists, List.findSome?_isSome_iff]
    exact ⟨e, he, by rw [Event.isSome_finalState?, hfinal]⟩
  obtain ⟨f, hf⟩ : ∃ f, a.find? Event.isFinal = some f := by
    rw [← Option.isSome_iff_exists, List.find?_isSome]
    exact ⟨e, he, hfinal⟩
  unfold reading
  rw [← retold_append, List.findSome?_append, List.find?_append, hstate, hf]
  rfl

/-! ## Records are readings -/

theorem apply_of_closed {r : RunRecord} (e : Event) (hr : r.state.isTerminal = true) :
    r.apply e = r.retold [e] := by
  cases hk : e.kind with
  | runStarted => simp [apply, retold, lastStart?, hk, Event.finishedLog?]
  | runCompleted => simp [apply, retold, lastStart?, hk, finish, hr, Event.finishedLog?]
  | runAborted => simp [apply, retold, lastStart?, hk, finish, hr, Event.finishedLog?]
  | stageStarted =>
    cases hi : e.stageIndex <;>
      simp [apply, retold, lastStart?, hk, hi, RunState.advance, hr, Event.finishedLog?]
  | stageCompleted =>
    cases hl : e.log <;> simp [apply, retold, lastStart?, hk, hl, Event.finishedLog?]
  | stageFailed =>
    cases hl : e.log <;> simp [apply, retold, lastStart?, hk, hl, Event.finishedLog?]

theorem apply_eq_reading {r : RunRecord} (e : Event) (hr : r.state.isTerminal = false) :
    r.apply e = r.reading [e] := by
  cases hfinal : e.isFinal with
  | false =>
    have hfinals : e.finalState? = none := by
      rw [← Option.not_isSome_iff_eq_none, Event.isSome_finalState?, hfinal]
      exact Bool.false_ne_true
    have hafter : r.After [e] (r.apply e) := after_apply hr hfinal
    rw [apply_of_open hr hfinal] at hafter ⊢
    have hstate : (e.startedIndex?.map RunState.running).getD r.state = lastState r.state [e] :=
      hafter.state
    have hlogs : r.logs ++ e.finishedLog?.toList = r.logs ++ [e].filterMap Event.finishedLog? :=
      hafter.logs
    unfold reading retold
    rw [← hstate, ← hlogs]
    by_cases hk : e.kind = .runStarted
    · simp [lastStart?, hk, hfinal, hfinals]
    · simp [lastStart?, hk, hfinal, hfinals]
  | true =>
    obtain hk | hk : e.kind = .runCompleted ∨ e.kind = .runAborted := by
      simpa [Event.isFinal] using hfinal
    · rw [apply_of_completed hr hk]
      simp [reading, retold, lastStart?, hk, Event.finalState?, Event.isFinal, Event.finishedLog?]
    · simp [apply, finish, hr, reading, retold, lastStart?, hk, Event.finalState?, Event.isFinal,
        Event.finishedLog?]

/-- After the end of a record its state and the time of its end stay. -/
theorem foldl_apply_of_closed {r : RunRecord} (es : List Event) (hr : r.state.isTerminal = true) :
    es.foldl apply r = r.retold es := by
  induction es generalizing r with
  | nil => simp [retold, lastStart?]
  | cons e es ih =>
    rw [List.foldl_cons, apply_of_closed e hr, ih (by exact hr), retold_append]
    rfl

/-- **The record after any events** is their reading. -/
theorem foldl_apply {r : RunRecord} (es : List Event) (hr : r.state.isTerminal = false) :
    es.foldl apply r = r.reading es := by
  induction es generalizing r with
  | nil => simp [reading, retold, lastStart?, lastState]
  | cons e es ih =>
    rw [List.foldl_cons, apply_eq_reading e hr]
    cases hfinal : e.isFinal with
    | false =>
      have hopen : ∀ x ∈ [e], x.isFinal = false := List.forall_mem_singleton.mpr hfinal
      have hr' : (r.reading [e]).state.isTerminal = false := by
        change ((List.findSome? Event.finalState? [e]).getD (lastState r.state [e])).isTerminal = _
        rw [findSome?_finalState? hopen]
        exact isTerminal_lastState hr [e]
      rw [ih hr', reading_append_of_open r hopen]
      rfl
    | true =>
      obtain ⟨state, hstate⟩ : ∃ state, e.finalState? = some state := by
        rw [← Option.isSome_iff_exists, Event.isSome_finalState?, hfinal]
      have hr' : (r.reading [e]).state.isTerminal = true := by
        simpa [reading, hstate] using Event.isTerminal_of_finalState? hstate
      rw [foldl_apply_of_closed es hr', reading_append_of_final r List.mem_cons_self hfinal]
      rfl

/-- **The record of events** is their reading. -/
theorem ofEvents?_eq (e : Event) (es : List Event) :
    ofEvents? (e :: es) = some ((begin e).reading (e :: es)) :=
  congrArg some (foldl_apply (e :: es) rfl)

/-- The state and the time of the end that events tell are there together. -/
theorem isSome_completedAt_reading {r : RunRecord} (hr : r.state.isTerminal = false)
    (hcompleted : r.completedAt = none) (es : List Event) :
    (r.reading es).completedAt.isSome = (r.reading es).state.isTerminal := by
  unfold reading
  dsimp only
  cases hfind : es.find? Event.isFinal with
  | none =>
    have hopen : ∀ e ∈ es, e.isFinal = false := fun e he => by
      simpa using List.find?_eq_none.mp hfind e he
    rw [findSome?_finalState? hopen, hcompleted]
    exact (isTerminal_lastState hr es).symm
  | some e =>
    obtain ⟨state, hstate⟩ : ∃ state, es.findSome? Event.finalState? = some state := by
      rw [← Option.isSome_iff_exists, List.findSome?_isSome_iff]
      refine ⟨e, List.mem_of_find?_eq_some hfind, ?_⟩
      rw [Event.isSome_finalState?, List.find?_some hfind]
    obtain ⟨f, -, hf⟩ := List.exists_of_findSome?_eq_some hstate
    rw [hstate]
    exact (Event.isTerminal_of_finalState? hf).symm

/-- **How the record of any events is settled.** The first final event settles the state and the
time of the end, which are there together, and no later event changes them. Without one, the last
stage that began with an index is running, if there is one. All logs of sections that ended are
there, in order. More events are applied to the record one by one. -/
theorem settled_record (first : Event) (rest : List Event) :
    let es := first :: rest
    ∃ r, ofEvents? es = some r ∧
      r.completedAt.isSome = r.state.isTerminal ∧
      (∀ before e after state, es = before ++ e :: after → (∀ x ∈ before, x.isFinal = false) →
        e.finalState? = some state → r.state = state ∧ r.completedAt = some e.timestamp) ∧
      ((∀ e ∈ es, e.isFinal = false) → r.state = lastState .notStarted es) ∧
      r.logs = es.filterMap Event.finishedLog? ∧
      ∀ more, ofEvents? (es ++ more) = some (more.foldl apply r) ∧
        ((∃ e ∈ es, e.isFinal = true) → (more.foldl apply r).state = r.state ∧
          (more.foldl apply r).completedAt = r.completedAt) := by
  intro es
  refine ⟨_, ofEvents?_eq first rest, isSome_completedAt_reading rfl rfl es, ?_, ?_, rfl, ?_⟩
  · intro before e after state hes hbefore hstate
    have hfinal : e.isFinal = true := by rw [← Event.isSome_finalState?, hstate]; rfl
    constructor
    · change (es.findSome? Event.finalState?).getD _ = state
      rw [hes, List.findSome?_append, findSome?_finalState? hbefore, List.findSome?_cons, hstate]
      rfl
    · change ((es.find? Event.isFinal).map Event.timestamp).or none = some e.timestamp
      rw [hes, List.find?_append, find?_isFinal hbefore, List.find?_cons_of_pos hfinal]
      rfl
  · intro hopen
    change (es.findSome? Event.finalState?).getD _ = _
    rw [findSome?_finalState? hopen]
    rfl
  · intro more
    have hmore : ofEvents? (es ++ more) = some (more.foldl apply ((begin first).reading es)) := by
      rw [← foldl_apply es rfl, ← List.foldl_append]
      rfl
    refine ⟨hmore, fun ⟨e, he, hfinal⟩ => ?_⟩
    have hover : ((begin first).reading es).state.isTerminal = true := by
      rw [← isSome_completedAt_reading rfl rfl es]
      change (((es.find? Event.isFinal).map Event.timestamp).or none).isSome = true
      simpa using ⟨e, he, hfinal⟩
    rw [foldl_apply_of_closed more hover]
    exact ⟨rfl, rfl⟩

end RunRecord

end Qualification
