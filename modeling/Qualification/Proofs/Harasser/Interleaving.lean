import Mathlib.Logic.Relation
import Qualification.Proofs.Harasser.Custody
/-!
# Calls that overlap

Calls on one crew go on in turns: each does what it does between two waits at once, and while it
waits, others go on, harassers end, or the call is given up.

* `State`: the world, and what is left of each call that is in progress;
* `Move`, `Step`, `Run`: what may happen next;
* `Inv`, **`Inv.step`**, **`Inv.run`**: harassers are in one place, or over.
-/

namespace Qualification.HarasserUtility

variable {σ α β : Type} {owner : Nat} {s : Services σ}

/-! ## Calls in progress -/

namespace Course

/-- The harassers in the hands of a call that waits. -/
def hands : Course σ α → List Harasser
  | await hands _ _ => hands
  | _ => []

/-- Goes on to the next wait, or to the end. -/
def advance : Course σ α → World σ → Course σ α × World σ
  | now change next, w => (next w).advance (change w)
  | c, w => (c, w)

/-- What is left of a call, unless it has ended. -/
def pending : Course σ α → List (Course σ α)
  | ended _ => []
  | c => [c]

theorem tidy_advance {c : Course σ α} {hs : List Harasser} {w : World σ}
    (htidy : c.Tidy owner [] hs) (hknown : Known owner w hs) :
    Handover owner w hs (c.advance w).2 ((c.advance w).1.pending.flatMap hands) ∧
      ∀ c' ∈ (c.advance w).1.pending, c'.Tidy owner [] c'.hands := by
  induction c generalizing hs w with
  | ended a =>
    cases htidy
    exact ⟨Handover.refl w [], List.forall_mem_nil _⟩
  | now change next ih =>
    obtain ⟨hs', hhand, hnext⟩ := htidy w hknown
    obtain ⟨hhand', htidy'⟩ := ih w hnext (hhand.known hknown)
    exact ⟨hhand.trans hhand', htidy'⟩
  | await hs' on next ih =>
    obtain rfl := htidy.1
    refine ⟨?_, List.forall_mem_singleton.mpr htidy⟩
    change Handover owner w hs w (hs ++ [])
    rw [List.append_nil]
    exact Handover.refl w hs

end Course

/-- A crew and the calls on it that are in progress. -/
structure State (σ : Type) where
  world : World σ
  /-- What is left of each call. -/
  calls : List (Course σ Log)
  /-- The harassers started so far. -/
  started : List Nat

namespace State

/-- The harassers that are in the crew or in the hands of a call. -/
def held (owner : Nat) (st : State σ) : List Harasser :=
  st.world.crew owner ++ st.calls.flatMap Course.hands

/-- Begins a call. -/
def call (st : State σ) (c : Course σ Log) : State σ :=
  { st with
    world := (c.advance st.world).2
    calls := st.calls ++ (c.advance st.world).1.pending }

end State

/-- What happens next. -/
inductive Move where
  | start | check | stop | resume | cancel | deactivate | elsewhere
  deriving DecidableEq

/-- Whether a move only goes on with what has begun. -/
def Move.GoesOn : Move → Prop
  | resume => True
  | cancel => True
  | elsewhere => True
  | _ => False

/-- A step of the calls on a crew. -/
inductive Step (owner : Nat) (s : Services σ) : Move → State σ → State σ → Prop
  /-- Harassers are started, which takes no time. -/
  | start {st : State σ} {pairs : List (String × String)} {ids : List Nat} {w : World σ}
      (h : startPairs owner s pairs st.world = (.done ids, w)) :
      Step owner s .start st { st with world := w, started := st.started ++ ids }
  | check (st : State σ) (log : Log) (r : Resolved) :
      Step owner s .check st (st.call (checkCourse owner log r))
  | stop (st : State σ) (log : Log) (r : Resolved) :
      Step owner s .stop st (st.call (stopCourse owner log r))
  /-- A call has waited for long enough, and goes on. -/
  | resume {st : State σ} {before after : List (Course σ Log)} {hands : List Harasser} {on : Await}
      {next : Int → Course σ Log} {status : Int} {w : World σ}
      (hcalls : st.calls = before ++ .await hands on next :: after)
      (hanswers : on.Answers status st.world w) :
      Step owner s .resume st { st with
        world := ((next status).advance w).2
        calls := before ++ ((next status).advance w).1.pending ++ after }
  /-- A call that waits is given up: the harassers in its hands are aborted. -/
  | cancel {st : State σ} {before after : List (Course σ Log)} {c : Course σ Log}
      (hcalls : st.calls = before ++ c :: after) :
      Step owner s .cancel st { st with
        world := abortAll c.hands st.world
        calls := before ++ after }
  | deactivate (st : State σ) :
      Step owner s .deactivate st { st with world := release owner st.world }
  /-- Anything else happens: time passes, tasks end with any status or are aborted, and others are
  started. -/
  | elsewhere {st : State σ} {w : World σ} (honward : st.world.Onward w)
      (hcrew : w.crew owner = st.world.crew owner) :
      Step owner s .elsewhere st { st with world := w }

/-- A harasser that is alive may end at any moment, with any status. -/
theorem Step.finish (st : State σ) (id : Nat) (status : Int) :
    Step owner s .elsewhere st { st with world := st.world.finish id status } :=
  .elsewhere (st.world.onward_finish id status) rfl

/-- A run of steps with some moves. -/
def Run (owner : Nat) (s : Services σ) (moves : Move → Prop) : State σ → State σ → Prop :=
  Relation.ReflTransGen fun st st' => ∃ m, moves m ∧ Step owner s m st st'

theorem Run.mono {moves moves' : Move → Prop} {st st' : State σ} (h : Run owner s moves st st')
    (hmoves : ∀ m, moves m → moves' m) : Run owner s moves' st st' :=
  Relation.ReflTransGen.mono (fun _ _ ⟨m, hm, hstep⟩ => ⟨m, hmoves m hm, hstep⟩) st st' h

/-- What every step keeps is so at the end of a run. -/
theorem Run.preserves {P : State σ → Prop} {moves : Move → Prop} {st st' : State σ}
    (hstep : ∀ m st st', moves m → Step owner s m st st' → P st → P st')
    (h : Run owner s moves st st') (hst : P st) : P st' := by
  induction h with
  | refl => exact hst
  | tail _ hlast ih =>
    obtain ⟨m, hm, hlast⟩ := hlast
    exact hstep m _ _ hm hlast ih

/-! ## Harassers are in one place or over -/

/-- Whether each harasser that was started is in one place or over. -/
structure Inv (owner : Nat) (st : State σ) : Prop where
  numbered : st.world.Numbered
  tidy : ∀ c ∈ st.calls, c.Tidy owner [] c.hands
  nodup : ((st.held owner).map Harasser.task).Nodup
  started : ∀ h ∈ st.held owner, h.task ∈ st.started
  knows : ∀ id ∈ st.started, st.world.Knows id
  gone : ∀ id ∈ st.started, id ∉ (st.held owner).map Harasser.task → st.world.Over id

namespace Inv

variable {st st' : State σ}

theorem init {w : World σ} (hnumbered : w.Numbered) (hcrew : w.crew owner = []) :
    Inv owner ⟨w, [], []⟩ := by
  have hheld : State.held owner ⟨w, [], []⟩ = [] := by
    rw [State.held, hcrew]
    rfl
  exact ⟨hnumbered, List.forall_mem_nil _, hheld ▸ List.nodup_nil, hheld ▸ List.forall_mem_nil _,
    List.forall_mem_nil _, List.forall_mem_nil _⟩

theorem known (hinv : Inv owner st) {hs : List Harasser}
    (hs_subset : ∀ h ∈ hs, h ∈ st.held owner) : Known owner st.world hs := by
  intro h hh
  have hheld : h ∈ st.held owner := by
    rcases List.mem_append.mp hh with hh | hh
    · exact List.mem_append_left _ hh
    · exact hs_subset h hh
  exact hinv.knows _ (hinv.started h hheld)

/-- Some calls go on and hand harassers over. -/
theorem handover (hinv : Inv owner st) {before mid mid' after : List (Course σ Log)} {w : World σ}
    (hcalls : st.calls = before ++ mid ++ after)
    (hhand : Handover owner st.world (mid.flatMap Course.hands) w (mid'.flatMap Course.hands))
    (htidy : ∀ c ∈ mid', c.Tidy owner [] c.hands) :
    Inv owner { st with world := w, calls := before ++ mid' ++ after } := by
  obtain ⟨gone, hperm, hover⟩ := hhand.perm
  -- Those that were held are held still, or were let go of.
  have hheld : (st.held owner).Perm
      (State.held owner { st with world := w, calls := before ++ mid' ++ after } ++ gone) := by
    rw [List.perm_iff_count] at hperm ⊢
    intro h
    have hcount := hperm h
    rw [State.held, State.held, hcalls]
    simp only [List.flatMap_append, List.count_append] at hcount ⊢
    omega
  have htasks := hheld.map Harasser.task
  rw [List.map_append] at htasks
  refine ⟨hhand.onward.numbered hinv.numbered, ?_, ?_, ?_, ?_, ?_⟩
  · have hold := hinv.tidy
    rw [hcalls, List.forall_mem_append, List.forall_mem_append] at hold
    exact List.forall_mem_append.mpr ⟨List.forall_mem_append.mpr ⟨hold.1.1, htidy⟩, hold.2⟩
  · exact (List.nodup_append.mp (htasks.nodup_iff.mp hinv.nodup)).1
  · intro h hh
    exact hinv.started h (hheld.mem_iff.mpr (List.mem_append_left _ hh))
  · intro id hid
    exact hhand.onward.knows id (hinv.knows id hid)
  · intro id hid hnot
    by_cases hold : id ∈ (st.held owner).map Harasser.task
    · rcases List.mem_append.mp (htasks.mem_iff.mp hold) with hnew | hgone
      · exact absurd hnew hnot
      · obtain ⟨h, hh, rfl⟩ := List.mem_map.mp hgone
        exact hover h hh
    · exact hhand.onward.ended id (hinv.gone id hid hold)

/-- A call that is in progress goes on, or ends. -/
theorem goesOn (hinv : Inv owner st) {before after : List (Course σ Log)} {c : Course σ Log}
    (rest : List (Course σ Log)) {w : World σ} (hcalls : st.calls = before ++ c :: after)
    (hrest : c.Tidy owner [] c.hands → Known owner st.world c.hands →
      Handover owner st.world c.hands w (rest.flatMap Course.hands) ∧
        ∀ c' ∈ rest, c'.Tidy owner [] c'.hands) :
    Inv owner { st with world := w, calls := before ++ rest ++ after } := by
  have hc : c ∈ st.calls := by
    rw [hcalls]
    exact List.mem_append_right _ List.mem_cons_self
  have hknown : Known owner st.world c.hands := hinv.known fun h hh =>
    List.mem_append_right _ (List.mem_flatMap.mpr ⟨c, hc, hh⟩)
  obtain ⟨hhand, htidy⟩ := hrest (hinv.tidy c hc) hknown
  rw [List.append_cons] at hcalls
  refine hinv.handover hcalls ?_ htidy
  rw [List.flatMap_singleton]
  exact hhand

theorem changes (hinv : Inv owner st) (rest : List (Course σ Log)) {w : World σ}
    (hrest : Known owner st.world [] →
      Handover owner st.world [] w (rest.flatMap Course.hands) ∧
        ∀ c' ∈ rest, c'.Tidy owner [] c'.hands) :
    Inv owner { st with world := w, calls := st.calls ++ rest } := by
  obtain ⟨hhand, htidy⟩ := hrest (hinv.known (List.forall_mem_nil _))
  have hcalls : st.calls = st.calls ++ [] ++ [] := by rw [List.append_nil, List.append_nil]
  have hnew := hinv.handover hcalls hhand htidy
  rw [List.append_nil] at hnew
  exact hnew

theorem changed (hinv : Inv owner st) {w : World σ}
    (hhand : Known owner st.world [] → Handover owner st.world [] w []) :
    Inv owner { st with world := w } := by
  have hnew := hinv.changes [] fun hknown => ⟨hhand hknown, List.forall_mem_nil _⟩
  rw [List.append_nil] at hnew
  exact hnew

theorem enlisted (hinv : Inv owner st) (stopScript : String) (begin : σ → (Nat × Int) × σ) :
    Inv owner { st with
      world := enlist owner stopScript begin st.world
      started := st.started ++ [(st.world.spawn begin).1] } := by
  obtain ⟨hfresh, hknows⟩ := World.knows_spawn hinv.numbered begin
  have honward : st.world.Onward (enlist owner stopScript begin st.world) :=
    (st.world.onward_spawn begin).trans (World.onward_of_tasks_eq rfl)
  have hcrew : (enlist owner stopScript begin st.world).crew owner =
      st.world.crew owner ++ [⟨(st.world.spawn begin).1, stopScript⟩] := if_pos rfl
  have hheld : (State.held owner { st with
      world := enlist owner stopScript begin st.world
      started := st.started ++ [(st.world.spawn begin).1] }).Perm
      (⟨(st.world.spawn begin).1, stopScript⟩ :: st.held owner) := by
    rw [State.held, State.held, hcrew, List.append_assoc]
    exact List.perm_middle
  have htasks := hheld.map Harasser.task
  rw [List.map_cons] at htasks
  refine ⟨honward.numbered hinv.numbered, hinv.tidy, ?_, ?_, ?_, ?_⟩
  · -- The number is a new one, and held harassers have known ones.
    rw [htasks.nodup_iff, List.nodup_cons]
    refine ⟨fun hmem => ?_, hinv.nodup⟩
    obtain ⟨h, hh, htask⟩ := List.mem_map.mp hmem
    have hknown := hinv.knows _ (hinv.started h hh)
    rw [htask] at hknown
    exact hfresh hknown
  · intro h hh
    rcases List.mem_cons.mp (hheld.mem_iff.mp hh) with rfl | hh
    · exact List.mem_append_right _ List.mem_cons_self
    · exact List.mem_append_left _ (hinv.started h hh)
  · intro id hid
    rcases List.mem_append.mp hid with hid | hid
    · exact honward.knows id (hinv.knows id hid)
    · rw [List.mem_singleton.mp hid]
      exact hknows
  · intro id hid hnot
    rw [htasks.mem_iff, List.mem_cons, not_or] at hnot
    rcases List.mem_append.mp hid with hid | hid
    · exact honward.ended id (hinv.gone id hid hnot.2)
    · exact absurd (List.mem_singleton.mp hid) hnot.1

theorem enlistedAll (hinv : Inv owner st) (pairs : List (String × String)) {ids : List Nat}
    {w : World σ} (h : startPairs owner s pairs st.world = (.done ids, w)) :
    Inv owner { st with world := w, started := st.started ++ ids } := by
  induction pairs generalizing st ids w with
  | nil =>
    cases h
    rw [List.append_nil]
    exact hinv
  | cons pair pairs ih =>
    obtain ⟨trigger, stopScript⟩ := pair
    cases hrequest : Request.ofWords? (Text.words trigger) with
    | none =>
      rw [startPairs, hrequest] at h
      exact ih hinv h
    | some request =>
      obtain ⟨request, hcons⟩ := startPairs_cons s owner hrequest stopScript pairs st.world
      obtain ⟨ids', w', hpairs⟩ := startPairs_done s owner pairs
        (enlist owner stopScript (task s.executor request) st.world)
      rw [hcons, Act.bind_of_done hpairs] at h
      cases h
      have hnew := ih (hinv.enlisted stopScript (task s.executor request)) hpairs
      rw [List.append_assoc] at hnew
      exact hnew

/-- **One step**: each harasser stays in one place, or is over. -/
theorem step (hinv : Inv owner st) {m : Move} (h : Step owner s m st st') : Inv owner st' := by
  cases h with
  | start h => exact hinv.enlistedAll _ h
  | check => exact hinv.changes _ (Course.tidy_advance (tidy_check owner _ _))
  | stop => exact hinv.changes _ (Course.tidy_advance (tidy_stop owner _ _))
  | resume hcalls hanswers =>
    refine hinv.goesOn _ hcalls fun htidy hknown => ?_
    obtain ⟨hs, hhand, hnext⟩ := htidy.2 _ _ _ hknown hanswers
    obtain ⟨hhand', htidy'⟩ := Course.tidy_advance hnext (hhand.known hknown)
    exact ⟨hhand.trans hhand', htidy'⟩
  | cancel hcalls =>
    have hnew := hinv.goesOn [] hcalls fun _ hknown =>
      ⟨Handover.abandon hknown, List.forall_mem_nil _⟩
    rw [List.append_nil] at hnew
    exact hnew
  | deactivate => exact hinv.changed Handover.release
  | elsewhere honward hcrew =>
    exact hinv.changed fun _ => Handover.letGo honward hcrew (List.Perm.refl [])
      (List.forall_mem_nil _)

/-- **A run**: each harasser stays in one place, or is over. -/
theorem run {moves : Move → Prop} (hinv : Inv owner st) (h : Run owner s moves st st') :
    Inv owner st' :=
  h.preserves (fun _ _ _ _ hstep hinv => hinv.step hstep) hinv

end Inv

end Qualification.HarasserUtility
