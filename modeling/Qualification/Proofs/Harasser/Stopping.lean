import Qualification.Proofs.Harasser.Scripts
import Qualification.Proofs.Lapse
import Qualification.Proofs.Plugin.Alone
/-!
# Stopping the crew

The harassers of the crew are visited one after the other, whatever became of them and of those
before. At each visit the stop script is run; then the harasser is waited for, or it is aborted at
once if the script failed. The log tells how many were stopped and which scripts failed, and nothing
of how the harassers themselves ended.

* `Scripted`, `Released`, `Visit`: the two parts of a visit, and what is left of it;
* `Stops`: visits one after the other; `Stops.steady`, `Stops.gone`, `Stops.asked`;
* `stops_stopEach`, `exists_stopped`: the calls are such visits;
* `sublist_history`: the crew is in the order in which it was launched;
* `Stopped`, **`stop_account`**: what there is to tell of a call that stops the crew.
-/

namespace Qualification

variable {σ : Type}

/-- The request that a stop script makes, which a blank one does not. -/
def Harasser.request? (env : Environment) (h : Harasser) : Option Request :=
  (Request.ofWords? h.stopWords).map fun request => { request with env := env }

namespace HarasserUtility

/-! ## Visits -/

/-- Whether the stop script of a harasser was run, from one world to another, and with which status:
a blank one is not, and another one is asked of the executor once and waited for. -/
inductive Scripted (x : Executor σ) (h : Harasser) : World σ → Int → World σ → Prop
  | blank {w : World σ} (hrequest : h.request? w.env = none) : Scripted x h w 0 w
  | run {w w' : World σ} {request : Request} {response : Response} {host : σ}
      (hrequest : h.request? w.env = some request) (hasked : x request w.host = (response, host))
      (hlapses : ({ w with host } : World σ).Lapses w') (hnow : w'.now = w.now + response.after) :
      Scripted x h w (scriptStatus response.result) w'

/-- Whether a harasser was let go after its script: it was waited for, within the limit if there is
one, or it was aborted at once because the script failed. -/
def Released (limit : Option Nat) (h : Harasser) (status : Int) (w w' : World σ) : Prop :=
  if status = 0 then w.Joined limit h.task w' else w' = w.abort h.task

/-- A harasser that was visited, with the status of its script. -/
structure Visit where
  harasser : Harasser
  status : Int

/-- The entry of a visit at which the script failed. -/
def Visit.failure : Visit → String
  | ⟨h, status⟩ =>
    s!"stop script '{h.stopScript}' for harasser {h.task} exited with status {status}"

/-- The visits at which the script failed. -/
def failedVisits (visits : List Visit) : List Visit := visits.filter fun v => v.status != 0

/-- Whether harassers were visited one after the other, from one world to another. -/
inductive Stops (x : Executor σ) (limit : Option Nat) : World σ → List Visit → World σ → Prop
  | nil (w : World σ) : Stops x limit w [] w
  | cons {w w₁ w₂ w' : World σ} {h : Harasser} {status : Int} {visits : List Visit}
      (hscripted : Scripted x h w status w₁) (hreleased : Released limit h status w₁ w₂)
      (hothers : Stops x limit w₂ visits w') : Stops x limit w (⟨h, status⟩ :: visits) w'

section Steady

variable {x : Executor σ} {limit : Option Nat} {h : Harasser} {status : Int} {w w' : World σ}
  {visits : List Visit} {R : World σ → World σ → Prop}

theorem Scripted.steady (hscripted : Scripted x h w status w') (hR : World.Steady R)
    (hhost : ∀ (w : World σ) host, R w { w with host }) : R w w' := by
  cases hscripted with
  | blank _ => exact hR.refl w
  | run _ _ hlapses _ => exact hR.trans (hhost w _) (hlapses.steady hR)

theorem Released.steady (hreleased : Released limit h status w w') (hR : World.Steady R) :
    R w w' := by
  unfold Released at hreleased
  split_ifs at hreleased
  · exact hreleased.steady hR
  · rw [hreleased]
    exact hR.abort w h.task

/-- What holds in every wait and does not depend on the host, holds in the course of all visits. -/
theorem Stops.steady (hstops : Stops x limit w visits w') (hR : World.Steady R)
    (hhost : ∀ (w : World σ) host, R w { w with host }) : R w w' := by
  induction hstops with
  | nil w => exact hR.refl w
  | cons hscripted hreleased _ ih =>
    exact hR.trans (hscripted.steady hR hhost) (hR.trans (hreleased.steady hR) ih)

theorem Released.gone (hreleased : Released limit h status w w') :
    (w'.phase h.task).isAlive = false := by
  unfold Released at hreleased
  split_ifs at hreleased
  · exact hreleased.gone_after
  · rw [hreleased]
    exact World.isAlive_phase_abort w h.task

/-- **No harasser is left running.** -/
theorem Stops.gone (hstops : Stops x limit w visits w') :
    ∀ v ∈ visits, (w'.phase v.harasser.task).isAlive = false := by
  induction hstops with
  | nil w => exact List.forall_mem_nil _
  | cons _ hreleased hothers ih =>
    refine List.forall_mem_cons.mpr ⟨?_, ih⟩
    rw [hothers.steady World.steady_over (fun _ _ _ _ => rfl) _ hreleased.gone]
    exact hreleased.gone

end Steady

/-! ## What is asked for -/

theorem steady_quiet {γ : Type} (view : σ → γ) : World.Steady fun w w' : World σ =>
    w.Quiet view → w'.Quiet view ∧ view w'.host = view w.host where
  refl _ hw := ⟨hw, rfl⟩
  trans h h' hw := by
    obtain ⟨hw₁, hview⟩ := h hw
    obtain ⟨hw', hview'⟩ := h' hw₁
    exact ⟨hw', hview'.trans hview⟩
  settle _ hw := World.settle_of_quiet hw
  moveTo w _ _ hw := ⟨hw.of_begins (World.begins_map (World.begin_wake _) w.tasks), rfl⟩
  abort w id hw := ⟨hw.of_begins (World.begins_map (World.begin_abortWhen id) w.tasks), rfl⟩

section Asked

variable {x : Executor σ} {limit : Option Nat} {h : Harasser} {status : Int} {w w' : World σ}
  {visits : List Visit} {note : σ → List Request}
  (hnote : ∀ request host, note (x request host).2 = note host ++ [request])

include hnote

theorem Scripted.asked (hscripted : Scripted x h w status w') (hw : w.Quiet note) :
    w'.Quiet note ∧ note w'.host = note w.host ++ (h.request? w.env).toList := by
  cases hscripted with
  | blank hrequest =>
    rw [hrequest]
    exact ⟨hw, (List.append_nil _).symm⟩
  | @run _ request response host hrequest hasked hlapses _ =>
    obtain ⟨hw', hhost⟩ := hlapses.steady (steady_quiet note) hw
    refine ⟨hw', ?_⟩
    rw [hrequest, hhost, ← show _ = host from congrArg Prod.snd hasked]
    exact hnote request w.host

/-- **Each script is asked for once**, in order, and nothing else is. -/
theorem Stops.asked (hstops : Stops x limit w visits w') (hw : w.Quiet note) :
    note w'.host =
      note w.host ++ visits.filterMap fun v => v.harasser.request? w.env := by
  induction hstops with
  | nil w => exact (List.append_nil _).symm
  | @cons w w₁ w₂ w' h status visits hscripted hreleased _ ih =>
    obtain ⟨hw₁, hhost₁⟩ := hscripted.asked hnote hw
    obtain ⟨hw₂, hhost₂⟩ := hreleased.steady (steady_quiet note) hw₁
    have henv : w₂.env = w.env := (hreleased.steady World.steady_env).trans
      (hscripted.steady World.steady_env fun _ _ => rfl)
    rw [ih hw₂, hhost₂, hhost₁, henv, List.append_assoc, List.filterMap_cons]
    cases h.request? w.env <;> rfl

end Asked

/-! ## Calls are visits -/

section Calls

variable {s : Services σ} {limit : Option Nat} {h : Harasser} {status : Int} {w w' : World σ}

theorem scripted_runStopScript (hdone : runStopScript s h w = (.done status, w')) :
    Scripted s.executor h w status w' := by
  unfold runStopScript at hdone
  have hrequest : h.request? w.env =
      (Request.ofWords? (Text.words h.stopScript)).map fun r => { r with env := w.env } := rfl
  cases hwords : Request.ofWords? (Text.words h.stopScript) with
  | none =>
    rw [hwords] at hdone hrequest
    cases hdone
    exact .blank hrequest
  | some request =>
    rw [hwords] at hdone hrequest
    obtain ⟨_, w₁, hget, hrest⟩ := Act.exists_of_bind hdone
    cases hget
    obtain ⟨result, w₂, hperform, hpure⟩ := Act.exists_of_bind hrest
    cases hpure
    obtain ⟨response, host, hasked, rfl, hlapses, hnow⟩ := Act.exists_of_perform hperform
    exact .run hrequest hasked hlapses hnow

theorem joined_joinOrAbort (hdone : joinOrAbort limit h w = (.done (), w')) :
    w.Joined limit h.task w' := by
  cases limit with
  | none =>
    obtain ⟨_, w₁, hjoin, hpure⟩ := Act.exists_of_bind hdone
    cases hpure
    exact Act.joined_join hjoin
  | some ms =>
    obtain ⟨_, w₁, hstop, hpure⟩ := Act.exists_of_bind hdone
    cases hpure
    exact Act.joined_stopWithin hstop

theorem failedVisits_singleton (v : Visit) :
    failedVisits [v] = if v.status = 0 then [] else [v] := by
  by_cases hstatus : v.status = 0 <;> simp [failedVisits, hstatus]

/-- **One visit.** -/
theorem visit_stopOne {failure : Option String}
    (hdone : stopOne s limit h w = (.done failure, w')) : ∃ status w₁,
      Scripted s.executor h w status w₁ ∧ Released limit h status w₁ w' ∧
      failure.toList = (failedVisits [⟨h, status⟩]).map Visit.failure := by
  obtain ⟨status, w₁, hscript, hrest⟩ := Act.exists_of_bind hdone
  refine ⟨status, w₁, scripted_runStopScript hscript, ?_⟩
  split_ifs at hrest with hstatus
  · obtain ⟨_, w₂, hjoin, hpure⟩ := Act.exists_of_bind hrest
    cases hpure
    refine ⟨?_, ?_⟩
    · rw [Released, if_pos hstatus]
      exact joined_joinOrAbort hjoin
    · rw [failedVisits_singleton, if_pos hstatus]
      rfl
  · cases hrest
    refine ⟨?_, ?_⟩
    · rw [Released, if_neg hstatus]
    · rw [failedVisits_singleton, if_neg hstatus]
      rfl

/-- **All visits**, whatever comes of each of them. -/
theorem stops_stopEach {hs : List Harasser} {failures : List String}
    (hdone : stopEach s limit hs w = (.done failures, w')) : ∃ visits : List Visit,
      visits.map Visit.harasser = hs ∧ Stops s.executor limit w visits w' ∧
      failures = (failedVisits visits).map Visit.failure := by
  induction hs generalizing w failures with
  | nil =>
    cases hdone
    exact ⟨[], rfl, .nil _, rfl⟩
  | cons h hs ih =>
    obtain ⟨failure, w₁, hone, hrest⟩ := Act.exists_of_bind hdone
    obtain ⟨more, w₂, heach, hpure⟩ := Act.exists_of_bind hrest
    cases hpure
    obtain ⟨status, w₀, hscripted, hreleased, hfailure⟩ := visit_stopOne (Act.of_orElseUndo hone)
    obtain ⟨visits, hvisits, hstops, rfl⟩ := ih heach
    refine ⟨⟨h, status⟩ :: visits, by rw [List.map_cons, hvisits],
      .cons hscripted hreleased hstops, ?_⟩
    have hsplit : failedVisits (⟨h, status⟩ :: visits) =
        failedVisits [⟨h, status⟩] ++ failedVisits visits := List.filter_append [_] visits
    rw [hsplit, List.map_append, hfailure]

end Calls

/-! ## Stopping -/

/-- What there is to tell of a call that stops the crew. -/
structure Stopped (owner : Nat) (s : Services σ) (r : Resolved) (log : Log) (w : World σ)
    (visits : List Visit) (log' : Log) (w' : World σ) : Prop where
  /-- Each harasser of the crew is visited once, in order. -/
  visited : visits.map Visit.harasser = w.crew owner
  /-- The visits follow one another, whatever comes of each. -/
  course : Stops s.executor (joinTimeout? r) (setCrew w owner []) visits w'
  /-- An executor that notes what it is asked for has noted the scripts, each once and in order. -/
  asked : ∀ note : σ → List Request,
    (∀ request host, note (s.executor request host).2 = note host ++ [request]) → w.Quiet note →
    note w'.host = note w.host ++ (w.crew owner).filterMap (Harasser.request? w.env)
  /-- Nobody is left in the crew, and those of others are as they were. -/
  crew : w'.crew = (setCrew w owner []).crew
  /-- No harasser is left running, and those that were over are what they were. -/
  gone : ∀ h ∈ w.crew owner, (w'.phase h.task).isAlive = false
  stays : ∀ id, (w.phase id).isAlive = false → w'.phase id = w.phase id
  /-- If all scripts succeed, so does the call. -/
  succeeded : (∀ v ∈ visits, v.status = 0) →
    log' = { log with stdout := s!"Stopped {visits.length} harasser(s)", status := 0 }
  /-- If some fail, the log has an entry for each of them, in order. -/
  failed : (∃ v ∈ visits, v.status ≠ 0) →
    log' = { log with
      stdout := s!"Stopped {visits.length} harasser(s)"
      status := 1
      stderr := Text.joinWith "\n" ((failedVisits visits).map Visit.failure) }

theorem failedVisits_eq_nil_iff {visits : List Visit} :
    failedVisits visits = [] ↔ ∀ v ∈ visits, v.status = 0 := by
  simp [failedVisits, List.filter_eq_nil_iff]

/-- **A call that comes to its end** has visited the whole crew. -/
theorem exists_stopped {owner : Nat} {s : Services σ} {log log' : Log} {r : Resolved}
    {w w' : World σ} (h : stop owner s log r w = (.done log', w')) :
    ∃ visits, Stopped owner s r log w visits log' w' := by
  obtain ⟨crew, w₁, htake, hrest⟩ := Act.exists_of_bind h
  cases htake
  obtain ⟨failures, w₂, heach, hpure⟩ := Act.exists_of_bind hrest
  obtain ⟨visits, hvisits, hstops, rfl⟩ := stops_stopEach heach
  have hlength : (w.crew owner).length = visits.length := by
    rw [← hvisits, List.length_map]
  have hempty : ((failedVisits visits).map Visit.failure).isEmpty = true ↔
      ∀ v ∈ visits, v.status = 0 := by
    rw [List.isEmpty_iff, List.map_eq_nil_iff, failedVisits_eq_nil_iff]
  obtain rfl : w₂ = w' := by
    split_ifs at hpure <;> exact congrArg Prod.snd hpure
  refine ⟨visits, hvisits, hstops, fun note hnote hw => ?_,
    hstops.steady World.steady_crew fun _ _ => rfl, ?_,
    hstops.steady World.steady_over fun _ _ _ _ => rfl, fun hall => ?_, fun hsome => ?_⟩
  · rw [hstops.asked hnote hw, ← hvisits, List.filterMap_map]
    rfl
  · rw [← hvisits]
    exact List.forall_mem_map.mpr hstops.gone
  · rw [if_pos (hempty.mpr hall), hlength] at hpure
    cases hpure
    rfl
  · have hnot : ¬ ((failedVisits visits).map Visit.failure).isEmpty = true := fun hnone => by
      obtain ⟨v, hv, hstatus⟩ := hsome
      exact hstatus (hempty.mp hnone v hv)
    rw [if_neg hnot, hlength] at hpure
    cases hpure
    rfl

/-! ## The order of the crew -/

section History

variable {owner : Nat} {a b : Account σ}

/-- One turn leaves the crew in the order of launching. -/
theorem sublist_turn (hsound : a.Sound owner) (hsub : (a.world.crew owner).Sublist a.launched)
    (h : Turn owner a b) : (b.world.crew owner).Sublist b.launched := by
  cases h with
  | elsewhere hpassage => exact hpassage.crew ▸ hsub
  | @call c w hends =>
    obtain ⟨action, log, haction, hact⟩ := hends.exists_action
    change (w.crew owner).Sublist (a.launched ++ c.recruits a.world)
    unfold Call.recruits
    cases action with
    | start =>
      obtain ⟨ids, w₁, hpairs, hpure⟩ := Act.exists_of_bind hact
      cases hpure
      obtain ⟨hpassage, -, -⟩ :=
        passage_startPairs owner (Call.executor_of_start haction) hsound.numbered hpairs
      rw [if_pos haction, hpassage.crew]
      exact hsub.append (List.Sublist.refl _)
    | check =>
      have hnoting := Call.executor_of_ne (c := c) (by rw [haction]; decide)
      rw [if_neg (by rw [haction]; decide), List.append_nil]
      rcases passage_check owner hnoting hact with hpassage | ⟨rs, hpassage, -⟩
      · rw [hpassage.crew]
        exact List.filter_sublist.trans hsub
      · rw [hpassage.crew]
        exact List.nil_sublist _
    | stop =>
      have hnoting := Call.executor_of_ne (c := c) (by rw [haction]; decide)
      obtain ⟨rs, hpassage, -⟩ := passage_stop owner hnoting hact
      rw [hpassage.crew]
      exact List.nil_sublist _

/-- **The crew is in the order of launching**, after any calls. -/
theorem sublist_history {w : World (σ × List Request)} (hfresh : Fresh owner w)
    (h : History owner ⟨w, [], []⟩ a) : (a.world.crew owner).Sublist a.launched := by
  have hboth : a.Sound owner ∧ (a.world.crew owner).Sublist a.launched := by
    induction h with
    | refl => exact ⟨.fresh hfresh, by rw [hfresh.crew]⟩
    | tail _ hturn ih => exact ⟨ih.1.turn hturn, sublist_turn ih.1 ih.2 hturn⟩
  exact hboth.2

end History

theorem joinTimeout?_eq_some_iff {r : Resolved} {ms : Nat} : joinTimeout? r = some ms ↔
    ∃ secs : Nat, r.int? "join_timeout" = some (secs : Int) ∧ ms = secs * 1000 := by
  unfold joinTimeout?
  constructor
  · intro h
    obtain ⟨n, hn, rfl⟩ := Option.map_eq_some_iff.mp h
    obtain ⟨hint, hle⟩ := Option.filter_eq_some_iff.mp hn
    refine ⟨n.toNat, ?_, rfl⟩
    rw [hint, Int.toNat_of_nonneg (of_decide_eq_true hle)]
  · rintro ⟨secs, hint, rfl⟩
    rw [hint, Option.filter_some, if_pos (decide_eq_true (Int.natCast_nonneg secs))]
    rfl

/-- **Stopping the crew.** Without a time limit the call comes to its end. Whenever it does, each
harasser of the crew was visited once, in the order of launching and whatever became of the others:
its script was run unless it is blank, and the harasser was waited for, within the seconds of
`join_timeout` if these are a number that is not negative, or aborted at once if the script failed.
The log tells the number of harassers and which scripts failed. -/
theorem stop_account (owner : Nat) (s : Services σ) (log : Log) (r : Resolved) :
    (∀ w, w.deadline = none → ∃ log' w', stop owner s log r w = (.done log', w')) ∧
    (∀ w log' w', stop owner s log r w = (.done log', w') →
      ∃ visits, Stopped owner s r log w visits log' w') ∧
    (∀ ms, joinTimeout? r = some ms ↔
      ∃ secs : Nat, r.int? "join_timeout" = some (secs : Int) ∧ ms = secs * 1000) ∧
    ∀ (τ : Type) (w : World (τ × List Request)) a, Fresh owner w → History owner ⟨w, [], []⟩ a →
      (a.world.crew owner).Sublist a.launched := by
  refine ⟨fun w hw => ?_, fun _ _ _ => exists_stopped, fun _ => joinTimeout?_eq_some_iff,
    fun _ _ _ => sublist_history⟩
  obtain ⟨log', w', hdone, -⟩ := ends_stop owner s log r w hw
  exact ⟨log', w', hdone⟩

/-! ## A mixed crew -/

/-- An executor that notes its requests. The command `fail` ends with status 9, and `break` cannot
be run. -/
def moody : Executor (List Request) := fun request host =>
  let response : Response :=
    if request.program = "fail" then ⟨10, .ok ⟨9, "", "", false⟩⟩
    else if request.program = "break" then ⟨0, .error (.ofText "broken")⟩
    else ⟨20, .ok ⟨0, "", "", false⟩⟩
  (response, host ++ [request])

/-- Tasks that are running, have panicked or ended, or are to begin, and the harassers of a crew. -/
def mixedCrew : World (List Request) :=
  { World.start [] ⟨0, 0⟩ false with
    env := Dict.ofList [("LEVEL", "3")]
    tasks := [
      ⟨0, fun host => ((0, 0), host), .running 500 3⟩,
      ⟨1, fun host => ((0, 0), host), .ended faultStatus⟩,
      ⟨2, fun host => ((60000, 0), host), .queued⟩,
      ⟨3, fun host => ((0, 0), host), .running 90000 0⟩,
      ⟨4, fun host => ((0, 0), host), .ended 5⟩,
      ⟨5, fun host => ((0, 0), host), .running 2100 0⟩]
    crew := fun owner => if owner = 7 then [⟨0, "unload cpu"⟩, ⟨1, "calm"⟩, ⟨2, "calm it"⟩,
      ⟨3, "fail"⟩, ⟨4, "break it"⟩, ⟨5, " "⟩] else [] }

def moodyServices : Services (List Request) :=
  ⟨fun _ _ _ => Act.panicWith none, moody, none, none⟩

/-- Harassers are waited for two seconds. -/
def twoSeconds : Resolved := ⟨Dict.ofList [("join_timeout", " 2 ")], Dict.empty⟩

theorem quiet_mixedCrew : mixedCrew.Quiet id := by
  unfold World.Quiet mixedCrew
  iterate 6 refine List.forall_mem_cons.mpr ⟨fun _ => rfl, ?_⟩
  exact List.forall_mem_nil _

/-- What is seen of a call that came to its end: its log, the commands that were asked for, and
where the tasks stand. -/
def seen : Ending Log × World (List Request) → Option (Log × List (List String) × List Phase)
  | (.done log, w) => some (log, w.host.map Request.argv, w.tasks.map Task.phase)
  | _ => none

/-- Three harassers were launched, and a check found the first one over. -/
def oneFound : Account Unit :=
  let a₀ : Account Unit := ⟨World.start ((), []) ⟨0, 0⟩ false, [], []⟩
  let a₁ := a₀.call 7 (threeHarassers "start")
  { a₁ with world := a₁.world.finish 0 0 }.call 7 (threeHarassers "check")

theorem history_oneFound : History 7 ⟨World.start ((), []) ⟨0, 0⟩ false, [], []⟩ oneFound := by
  have h₁ : History 7 ⟨World.start ((), []) ⟨0, 0⟩ false, [], []⟩ _ :=
    .single (.of_isOk (threeHarassers "start") (by decide +kernel))
  have h₂ := h₁.tail (.elsewhere (passage_finish _ 0 0))
  exact h₂.tail (.of_isOk (threeHarassers "check") (by decide +kernel))

/-- Two of five scripts fail. One harasser is aborted since it takes too long, and one because its
script failed. -/
theorem stop_account_mixed :
    let log := Log.new "" ""
    let stderr := "stop script 'fail' for harasser 3 exited with status 9\n" ++
      "stop script 'break it' for harasser 4 exited with status -1"
    mixedCrew.deadline = none ∧ joinTimeout? twoSeconds = some 2000 ∧
    (∃ secs : Nat, twoSeconds.int? "join_timeout" = some (secs : Int) ∧ 2000 = secs * 1000) ∧
    ∃ log' w' visits, stop 7 moodyServices log twoSeconds mixedCrew = (.done log', w') ∧
      Stopped 7 moodyServices twoSeconds log mixedCrew visits log' w' ∧
      log' = { log with stdout := "Stopped 6 harasser(s)", status := 1, stderr } ∧
      w'.host = (mixedCrew.crew 7).filterMap (Harasser.request? mixedCrew.env) ∧
      w'.host.map Request.argv =
        [["unload", "cpu"], ["calm"], ["calm", "it"], ["fail"], ["break", "it"]] ∧
      w'.tasks.map Task.phase =
        [.ended 3, .ended faultStatus, .aborted, .aborted, .ended 5, .ended 0] ∧
      oneFound.world.crew 7 = [⟨1, "cool"⟩, ⟨2, "drain"⟩] ∧
      (oneFound.world.crew 7).Sublist oneFound.launched := by
  intro log stderr
  obtain ⟨hends, hstopped, htimeout, hordered⟩ := stop_account 7 moodyServices log twoSeconds
  obtain ⟨log', w', hdone⟩ := hends mixedCrew rfl
  obtain ⟨visits, hvisits⟩ := hstopped mixedCrew log' w' hdone
  have hseen : seen (stop 7 moodyServices (Log.new "" "") twoSeconds mixedCrew) =
      some ({ Log.new "" "" with stdout := "Stopped 6 harasser(s)", status := 1, stderr :=
        "stop script 'fail' for harasser 3 exited with status 9\n" ++
          "stop script 'break it' for harasser 4 exited with status -1" },
        [["unload", "cpu"], ["calm"], ["calm", "it"], ["fail"], ["break", "it"]],
        [.ended 3, .ended faultStatus, .aborted, .aborted, .ended 5, .ended 0]) := by
    decide +kernel
  rw [hdone] at hseen
  obtain ⟨hlog, hrest⟩ := Prod.mk.inj (Option.some.inj hseen)
  obtain ⟨hhost, hphases⟩ := Prod.mk.inj hrest
  have hms : joinTimeout? twoSeconds = some 2000 := by decide +kernel
  have hasked : w'.host = (mixedCrew.crew 7).filterMap (Harasser.request? mixedCrew.env) :=
    hvisits.asked id (fun _ _ => rfl) quiet_mixedCrew
  exact ⟨rfl, hms, (htimeout 2000).mp hms, log', w', visits, hdone, hvisits, hlog, hasked, hhost,
    hphases, by decide +kernel, hordered Unit _ oneFound (fresh_start 7 () _ _) history_oneFound⟩

end HarasserUtility

end Qualification
