import Mathlib.Data.List.Nodup
import Qualification.Proofs.Harasser.Alone
/-!
# No orphans

However calls overlap, a harasser that was started is in the crew, in the hands of one call, or let
go, and then it is over. A call that stops the crew alone leaves none.

* `Course.KeepsCrew`, `Vacant`, `vacant_run`: while a call stops the crew alone, nobody joins it;
* `Place`, `State.At`: where harassers are;
* **`no_orphans`**.
-/

namespace Qualification.HarasserUtility

variable {σ α β : Type} {owner : Nat} {s : Services σ}

/-! ## Calls that leave the crew alone -/

namespace Course

/-- Whether a course leaves the crew as it is. -/
def KeepsCrew (owner : Nat) : Course σ α → Prop
  | ended _ => True
  | now change next => ∀ w, (change w).crew owner = w.crew owner ∧ (next w).KeepsCrew owner
  | await _ _ next => ∀ status, (next status).KeepsCrew owner

theorem keepsCrew_bind {c : Course σ α} {f : α → Course σ β} (hc : c.KeepsCrew owner)
    (hf : ∀ a, (f a).KeepsCrew owner) : (c.bind f).KeepsCrew owner := by
  induction c with
  | ended a => exact hf a
  | now change next ih => exact fun w => ⟨(hc w).1, ih w (hc w).2⟩
  | await hands on next ih => exact fun status => ih status (hc status)

theorem keepsCrew_advance {c : Course σ α} (hc : c.KeepsCrew owner) (w : World σ) :
    (c.advance w).2.crew owner = w.crew owner ∧
      ∀ c' ∈ (c.advance w).1.pending, c'.KeepsCrew owner := by
  induction c generalizing w with
  | ended a => exact ⟨rfl, List.forall_mem_nil _⟩
  | now change next ih =>
    obtain ⟨hcrew, hpending⟩ := ih w (hc w).2 (change w)
    exact ⟨hcrew.trans (hc w).1, hpending⟩
  | await hands on next ih => exact ⟨rfl, List.forall_mem_singleton.mpr hc⟩

end Course

open Course

theorem keepsCrew_afterScript (limit : Option Nat) (h : Harasser) (hs : List Harasser)
    (status : Int) : (afterScriptCourse limit h hs status : Course σ _).KeepsCrew owner := by
  unfold afterScriptCourse
  split_ifs
  · exact fun _ => trivial
  · exact fun _ => ⟨rfl, trivial⟩

theorem keepsCrew_stopOne (limit : Option Nat) (h : Harasser) (hs : List Harasser) :
    (stopOneCourse limit h hs : Course σ _).KeepsCrew owner := by
  unfold stopOneCourse
  split
  · exact keepsCrew_afterScript limit h hs 0
  · exact fun _ => ⟨rfl, keepsCrew_afterScript limit h hs⟩

theorem keepsCrew_stopEach (limit : Option Nat) (hs : List Harasser) :
    (stopEachCourse limit hs : Course σ _).KeepsCrew owner := by
  induction hs with
  | nil => trivial
  | cons h hs ih =>
    exact keepsCrew_bind (keepsCrew_stopOne limit h hs) fun _ => keepsCrew_bind ih fun _ => trivial

/-- Whether the crew is empty, and no call will change that. -/
structure Vacant (owner : Nat) (st : State σ) : Prop where
  crew : st.world.crew owner = []
  calls : ∀ c ∈ st.calls, c.KeepsCrew owner

namespace Vacant

variable {st st' : State σ}

theorem stop (hcalls : st.calls = []) (log : Log) (r : Resolved) :
    Vacant owner (st.call (stopCourse owner log r)) := by
  have hkeeps : ((stopEachCourse (joinTimeout? r) (st.world.crew owner)).bind fun failures =>
      let log := { log with stdout := s!"Stopped {(st.world.crew owner).length} harasser(s)" }
      (.ended (if failures.isEmpty then { log with status := 0 }
        else log.fail 1 (Text.joinWith "\n" failures)) : Course σ Log)).KeepsCrew owner :=
    keepsCrew_bind (keepsCrew_stopEach _ _) fun _ => trivial
  obtain ⟨hcrew, hpending⟩ := keepsCrew_advance hkeeps (setCrew st.world owner [])
  refine ⟨hcrew.trans (if_pos rfl), ?_⟩
  rw [State.call, hcalls, List.nil_append]
  exact hpending

theorem deactivate (hcalls : st.calls = []) :
    Vacant owner { st with world := release owner st.world } :=
  ⟨if_pos rfl, hcalls ▸ List.forall_mem_nil _⟩

theorem step (hvacant : Vacant owner st) {m : Move} (hm : m.GoesOn) (h : Step owner s m st st') :
    Vacant owner st' := by
  cases h with
  | start => cases hm
  | check => cases hm
  | stop => cases hm
  | deactivate => cases hm
  | resume hcalls hanswers =>
    have hold := hvacant.calls
    rw [hcalls, List.forall_mem_append, List.forall_mem_cons] at hold
    obtain ⟨hbefore, hc, hafter⟩ := hold
    obtain ⟨hcrew, hpending⟩ := keepsCrew_advance (hc _) _
    refine ⟨hcrew.trans ((congrFun hanswers.onward.2 owner).trans hvacant.crew), ?_⟩
    exact List.forall_mem_append.mpr ⟨List.forall_mem_append.mpr ⟨hbefore, hpending⟩, hafter⟩
  | cancel hcalls =>
    have hold := hvacant.calls
    rw [hcalls, List.forall_mem_append, List.forall_mem_cons] at hold
    refine ⟨(congrFun (World.crew_abortAll _ _) owner).trans hvacant.crew, ?_⟩
    exact List.forall_mem_append.mpr ⟨hold.1, hold.2.2⟩
  | elsewhere honward hcrew => exact ⟨hcrew.trans hvacant.crew, hvacant.calls⟩

theorem run (hvacant : Vacant owner st) (h : Run owner s Move.GoesOn st st') :
    Vacant owner st' :=
  h.preserves (fun _ _ _ hm hstep hvacant => hvacant.step hm hstep) hvacant

end Vacant

/-! ## Where harassers are -/

/-- Where a harasser is. -/
inductive Place where
  | crew
  /-- In the hands of a call that is in progress. -/
  | hands (call : Nat)
  | gone

/-- Whether a harasser is in a place. One that is gone has ended or was aborted. -/
def State.At (owner : Nat) (st : State σ) (id : Nat) : Place → Prop
  | .crew => id ∈ (st.world.crew owner).map Harasser.task
  | .hands call => ∃ c, st.calls[call]? = some c ∧ id ∈ c.hands.map Harasser.task
  | .gone => id ∉ (st.held owner).map Harasser.task ∧ st.world.Over id

theorem eq_of_nodup_flatMap {f : α → List β} {l : List α} (h : (l.flatMap f).Nodup) {i j : Nat}
    {a b : α} (ha : l[i]? = some a) (hb : l[j]? = some b) {x : β} (hxa : x ∈ f a) (hxb : x ∈ f b) :
    i = j := by
  have hpairs := (List.nodup_flatMap.mp h).2
  rw [List.pairwise_iff_getElem] at hpairs
  obtain ⟨hi, rfl⟩ := List.getElem?_eq_some_iff.mp ha
  obtain ⟨hj, rfl⟩ := List.getElem?_eq_some_iff.mp hb
  rcases Nat.lt_trichotomy i j with hlt | heq | hlt
  · exact absurd hxb (hpairs i j hi hj hlt hxa)
  · exact heq
  · exact absurd hxa (hpairs j i hj hi hlt hxb)

theorem Inv.existsUnique_place {st : State σ} (hinv : Inv owner st) {id : Nat}
    (hid : id ∈ st.started) : ∃! place, st.At owner id place := by
  have hnodup := hinv.nodup
  have hheld : (st.held owner).map Harasser.task = (st.world.crew owner).map Harasser.task ++
      st.calls.flatMap fun c => c.hands.map Harasser.task := by
    rw [State.held, List.map_append, List.map_flatMap]
  rw [hheld, List.nodup_append] at hnodup
  obtain ⟨-, hcalls, hapart⟩ := hnodup
  have hhands : ∀ {i : Nat}, st.At owner id (.hands i) →
      id ∈ st.calls.flatMap fun c => c.hands.map Harasser.task := by
    rintro i ⟨c, hc, hmem⟩
    exact List.mem_flatMap.mpr ⟨c, List.mem_of_getElem? hc, hmem⟩
  by_cases hcrew : id ∈ (st.world.crew owner).map Harasser.task
  · refine ⟨.crew, hcrew, ?_⟩
    rintro (_ | i | _) hat
    · rfl
    · exact absurd rfl (hapart id hcrew id (hhands hat))
    · exact absurd (hheld ▸ List.mem_append_left _ hcrew) hat.1
  by_cases hcall : id ∈ st.calls.flatMap fun c => c.hands.map Harasser.task
  · obtain ⟨c, hc, hmem⟩ := List.mem_flatMap.mp hcall
    obtain ⟨i, hi⟩ := List.mem_iff_getElem?.mp hc
    refine ⟨.hands i, ⟨c, hi, hmem⟩, ?_⟩
    rintro (_ | j | _) hat
    · exact absurd hat hcrew
    · obtain ⟨c', hc', hmem'⟩ := hat
      rw [eq_of_nodup_flatMap hcalls hi hc' hmem hmem']
    · exact absurd (hheld ▸ List.mem_append_right _ hcall) hat.1
  · have hnot : id ∉ (st.held owner).map Harasser.task := by
      rw [hheld, List.mem_append]
      exact not_or.mpr ⟨hcrew, hcall⟩
    refine ⟨.gone, ⟨hnot, hinv.gone id hid hnot⟩, ?_⟩
    rintro (_ | i | _) hat
    · exact absurd hat hcrew
    · exact absurd (hhands hat) hcall
    · rfl

/-! ## No orphans -/

/-- Whether a call stops the crew, or gives it up, and comes to its end, while no other call is in
progress. -/
def StopsAlone (owner : Nat) (s : Services σ) (st st' : State σ) : Prop :=
  st.calls = [] ∧ (∃ m st₁, (m = .stop ∨ m = .deactivate) ∧ Step owner s m st st₁ ∧
    Run owner s Move.GoesOn st₁ st') ∧ st'.calls = []

theorem Inv.over_of_stopsAlone {st st' : State σ} (hinv : Inv owner st)
    (h : StopsAlone owner s st st') :
    st'.world.crew owner = [] ∧ ∀ id ∈ st'.started, st'.world.Over id := by
  obtain ⟨hcalls, ⟨m, st₁, hm, hstep, hrun⟩, hcalls'⟩ := h
  -- With the crew empty and no call left nobody is held.
  have hvacant : Vacant owner st₁ := by
    cases hstep with
    | stop => exact Vacant.stop hcalls _ _
    | deactivate => exact Vacant.deactivate hcalls
    | _ => rcases hm with hm | hm <;> cases hm
  have hcrew := (hvacant.run hrun).crew
  have hheld : (st'.held owner).map Harasser.task = [] := by
    rw [State.held, hcrew, hcalls']
    rfl
  refine ⟨hcrew, fun id hid => ((hinv.step hstep).run hrun).gone id hid ?_⟩
  rw [hheld]
  exact List.not_mem_nil

/-- **Stopping the crew** stops it alone if no call is in progress. -/
theorem stopsAlone_stop {st : State σ} (hcalls : st.calls = []) (log : Log) (r : Resolved) :
    StopsAlone owner s st { st with world := (stop owner s log r st.world).2 } := by
  refine ⟨hcalls, ⟨.stop, _, .inl rfl, .stop st log r, ?_⟩, hcalls⟩
  rw [stop_eq]
  exact run_act st (stopCourse owner log r)

/-- **No orphans.** However calls overlap, a harasser that was started is in the crew, in the hands
of one call that is in progress, or gone, and then it has ended or was aborted. One that ends by
itself stays where it is until a call lets go of it. Stopping the crew alone, or giving it up,
leaves nobody running. -/
theorem no_orphans (s : Services σ) {w : World σ} (hnumbered : w.Numbered)
    (hcrew : w.crew owner = []) {st : State σ}
    (h : Run owner s (fun _ => True) ⟨w, [], []⟩ st) :
    ((st.held owner).map Harasser.task).Nodup ∧
    (∀ id ∈ st.started, ∃! place, st.At owner id place) ∧
    (∀ st', StopsAlone owner s st st' →
      st'.world.crew owner = [] ∧ ∀ id ∈ st'.started, st'.world.Over id) ∧
    ∀ log r,
      (∃ ids, Run owner s (fun _ => True) st { st with
        world := (start owner s log r st.world).2
        started := st.started ++ ids }) ∧
      Run owner s (fun _ => True) st { st with world := (check owner s log r st.world).2 } ∧
      Run owner s (fun _ => True) st { st with world := (stop owner s log r st.world).2 } ∧
      (st.calls = [] →
        StopsAlone owner s st { st with world := (stop owner s log r st.world).2 }) := by
  have hinv : Inv owner st := (Inv.init hnumbered hcrew).run h
  refine ⟨hinv.nodup, fun _ hid => hinv.existsUnique_place hid,
    fun _ hstops => hinv.over_of_stopsAlone hstops, fun log r => ⟨?_, ?_, ?_, ?_⟩⟩
  · exact run_start st log r
  · exact run_check st log r
  · exact run_stop st log r
  · exact fun hcalls => stopsAlone_stop hcalls log r

/-- Every command takes a minute and succeeds. -/
def slowServices : Services Unit :=
  ⟨fun _ _ _ => Act.panicWith none, fun _ host => (⟨60000, .ok ⟨0, "", "", false⟩⟩, host), none,
    none⟩

/-- What a harasser with such a command does. -/
def slowTask (host : Unit) : (Nat × Int) × Unit := ((60000, 0), host)

/-- A world before the first harasser. -/
def idleWorld : World Unit := World.start () ⟨0, 0⟩ false

/-- Two harassers are started, one of them dies, and a check finds it dead. Before that goes on, a
third one is started and another call begins to stop it. The check goes on, begins to stop the
second one, and is given up. -/
theorem no_orphans_overlapping : ∃ st,
    Run 0 slowServices (fun _ => True) ⟨idleWorld, [], []⟩ st ∧ st.started = [0, 1, 2] ∧
    st.At 0 0 .gone ∧ st.At 0 1 .gone ∧ st.At 0 2 (.hands 0) ∧
    ∀ id ∈ st.started, ∃! place, st.At 0 id place := by
  have htwo : ∀ w : World Unit,
      startPairs 0 slowServices [("load", "unload"), ("heat", "cool")] w =
        (.done [w.tasks.length, (enlist 0 "unload" slowTask w).tasks.length],
          enlist 0 "cool" slowTask (enlist 0 "unload" slowTask w)) := fun _ => rfl
  have hthird : ∀ w : World Unit, startPairs 0 slowServices [("flood", "drain")] w =
      (.done [w.tasks.length], enlist 0 "drain" slowTask w) := fun _ => rfl
  have hnumbered : idleWorld.Numbered := rfl
  have hcrew : idleWorld.crew 0 = [] := rfl
  have h₁ : Run 0 slowServices (fun _ => True) ⟨idleWorld, [], []⟩ ⟨_, [], [0, 1]⟩ :=
    .single ⟨.start, trivial, .start (htwo idleWorld)⟩
  have h₂ := h₁.tail ⟨.elsewhere, trivial, Step.finish _ 0 3⟩
  have h₃ := h₂.tail ⟨.check, trivial, .check _ (Log.new "" "") ⟨Dict.empty, Dict.empty⟩⟩
  have h₄ := h₃.tail ⟨.start, trivial, .start (hthird _)⟩
  have h₅ := h₄.tail ⟨.stop, trivial, .stop _ (Log.new "" "") ⟨Dict.empty, Dict.empty⟩⟩
  have h₆ := h₅.tail ⟨.resume, trivial, @Step.resume _ _ _ _ [] _ _ _ _ 3 _ rfl (.join rfl)⟩
  have h₇ := h₆.tail ⟨.cancel, trivial, @Step.cancel _ _ _ _ [] _ _ rfl⟩
  exact ⟨_, h₇, rfl, ⟨by decide, by decide⟩, ⟨by decide, by decide⟩, ⟨_, rfl, by decide⟩,
    (no_orphans slowServices hnumbered hcrew h₇).2.1⟩

end Qualification.HarasserUtility
