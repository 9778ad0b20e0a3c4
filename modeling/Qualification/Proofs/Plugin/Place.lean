import Qualification.Context
import Qualification.Proofs.Plugin.Errand
/-!
# Where commands run

Command lines, snippets and trigger scripts run in the scratch directory of the context, with the
environment of the moment. Stop scripts have that environment, and run where the program runs.
Commands for modules are not told of either.

* `Asked.Placed`, `Errand.asks`: where a plugin has its commands run;
* `World.Vouched`: worlds whose executor has been asked for nothing but some commands, and whose
  tasks ask for no others;
* `Vouched.along`, `Silent.along`: a plan asks for nothing besides its trace, and for exactly that
  where no task asks for anything;
* `Errands`, **`Errands.placed`**: any errands, one after another.
-/

namespace Qualification

variable {σ α : Type}

/-! ## Places -/

/-- Where a command runs and with which variables, in a context with a scratch directory. -/
structure Asked.Placed (dir : Option String) (a : Asked) : Prop where
  env : a.purpose ≠ .wrapper → a.request.env = a.overlay
  cwd : a.purpose ≠ .wrapper → a.purpose ≠ .stopScript → a.request.cwd = dir
  stop : a.purpose = .stopScript → a.request.cwd = none

namespace Asked.Placed

variable {dir : Option String} {overlay : Environment} {request : Request}
  {answer : Option (Except Fault Output)}

theorem of_ne {purpose : Purpose} (hpurpose : purpose ≠ .stopScript)
    (henv : request.env = overlay) (hcwd : request.cwd = dir) :
    Placed dir ⟨purpose, overlay, request, answer⟩ :=
  ⟨fun _ => henv, fun _ _ => hcwd, fun hstop => absurd hstop hpurpose⟩

theorem of_wrapper : Placed dir ⟨.wrapper, overlay, request, answer⟩ :=
  ⟨fun h => absurd rfl h, fun h => absurd rfl h, Purpose.noConfusion⟩

theorem of_stopScript (henv : request.env = overlay) (hcwd : request.cwd = none) :
    Placed dir ⟨.stopScript, overlay, request, answer⟩ :=
  ⟨fun _ => henv, fun _ h => absurd rfl h, fun _ => hcwd⟩

end Asked.Placed

section CommandLine

variable {P : Asked → Prop}

/-- All that is asked for with modules are commands for them. -/
theorem Modules.asks_plan
    (hwrapper : ∀ env words action m answer, P ⟨.wrapper, env, request words action m, answer⟩)
    (command : Option (List String)) (action : Action) (modules : List String) :
    (plan command action modules : Plan σ _).Asks P := by
  cases command with
  | none => exact Plan.asks_ended _
  | some words =>
    change (planFrom words action .nothing (named modules)).Asks P
    generalize Outcome.nothing = o
    induction named modules generalizing o with
    | nil => exact Plan.asks_ended _
    | cons m ms ih =>
      intro w
      refine ⟨hwrapper w.env words action m, fun r w' => ?_⟩
      cases r with
      | error fault => trivial
      | ok out =>
        dsimp only
        cases out.succeeded with
        | true => exact ih (o.add out) w'
        | false => trivial

variable {dir : Option String}
  (hcommand : ∀ env program args answer,
    P ⟨.command, env, ⟨program, args, env, dir, none⟩, answer⟩)

include hcommand

theorem CommandLine.asks_commandPlan (c : CommandLine) (log : Log) (r : Resolved) :
    (c.commandPlan dir log r : Plan σ _).Asks P := by
  cases hexpand : c.expand r with
  | nil =>
    rw [c.commandPlan_of_nil dir log r hexpand]
    exact Plan.asks_ended _
  | cons program args =>
    rw [c.commandPlan_of_cons dir log r hexpand]
    exact Plan.asks_ask (fun env => ⟨program, args, env, dir, none⟩)
      (fun env => hcommand env program args) fun _ => Plan.asks_ended _

/-- All that a command line asks for is its command, and commands for its modules. -/
theorem CommandLine.asks_plan
    (hwrapper : ∀ env words action m answer,
      P ⟨.wrapper, env, Modules.request words action m, answer⟩)
    (c : CommandLine) (command : Option (List String)) (log : Log) (r : Resolved) :
    (c.plan dir log r command : Plan σ _).Asks P := by
  unfold plan
  split_ifs
  · exact c.asks_commandPlan hcommand log r
  · refine Plan.asks_bind (Modules.asks_plan hwrapper _ _ _) fun loading => ?_
    cases loading with
    | error fault => exact Plan.asks_ended _
    | ok loaded =>
      refine Plan.asks_now (fun _ => ⟨rfl, rfl⟩) fun _ => ?_
      split_ifs
      · exact Plan.asks_bind (c.asks_commandPlan hcommand log r) fun _ =>
          Plan.asks_bind (Modules.asks_plan hwrapper _ _ _) fun _ =>
            Plan.asks_now (fun _ => ⟨rfl, rfl⟩) fun _ => Plan.asks_ended _
      · exact Plan.asks_ended _

end CommandLine

section Asks

variable (dir : Option String)

theorem Snippet.asks_plan (log : Log) (r : Resolved) :
    (plan dir log r : Plan σ _).Asks (Asked.Placed dir) := by
  unfold plan
  cases r.nonempty? "command" with
  | none => exact Plan.asks_ended _
  | some script =>
    exact Plan.asks_ask (fun env => { Request.script script with env, cwd := dir })
      (fun _ _ => .of_ne (by decide) rfl rfl) fun _ => Plan.asks_ended _

namespace HarasserUtility

theorem asks_startPairsPlan (owner : Nat) (pairs : List (String × String)) :
    (startPairsPlan owner dir pairs : Plan σ _).Asks (Asked.Placed dir) := by
  induction pairs with
  | nil => exact Plan.asks_ended _
  | cons pair pairs ih =>
    obtain ⟨trigger, stopScript⟩ := pair
    rw [startPairsPlan]
    cases Request.ofWords? (Text.words trigger) with
    | none => exact ih
    | some request =>
      exact Plan.asks_launch (fun env => { request with env, cwd := dir })
        (fun _ => .of_ne (by decide) rfl rfl) fun id =>
          Plan.asks_bind ih fun ids => Plan.asks_ended _

theorem asks_afterScript (limit : Option Nat) (h : Harasser) (hs : List Harasser) (status : Int) :
    (afterScriptCourse limit h hs status : Course σ _).plan.Asks (Asked.Placed dir) := by
  unfold afterScriptCourse
  split_ifs
  · exact Plan.asks_join fun _ => Plan.asks_ended _
  · exact Plan.asks_now (Plan.unnoticed_abort h.task) fun _ => Plan.asks_ended _

/-- A stop script runs where the program runs. -/
theorem asks_stopOne (limit : Option Nat) (h : Harasser) (hs : List Harasser) :
    (stopOneCourse limit h hs : Course σ _).plan.Asks (Asked.Placed dir) := by
  unfold stopOneCourse
  cases hrequest : Request.ofWords? (Text.words h.stopScript) with
  | none => exact asks_afterScript dir limit h hs 0
  | some request =>
    have hcwd : request.cwd = none := by
      unfold Request.ofWords? at hrequest
      split at hrequest
      · cases hrequest
      · cases hrequest
        rfl
    exact Plan.asks_ask (fun env => { request with env })
      (fun _ _ => .of_stopScript rfl hcwd) fun _ => asks_afterScript dir limit h hs _

theorem asks_stop (owner : Nat) (log : Log) (r : Resolved) :
    (stopCourse owner log r : Course σ _).plan.Asks (Asked.Placed dir) := by
  have heach : ∀ hs, (stopEachCourse (joinTimeout? r) hs : Course σ _).plan.Asks
      (Asked.Placed dir) := by
    intro hs
    induction hs with
    | nil => exact Plan.asks_ended _
    | cons h hs ih =>
      rw [stopEachCourse, Course.plan_bind]
      refine Plan.asks_bind (asks_stopOne dir _ h hs) fun failure => ?_
      rw [Course.plan_bind]
      exact Plan.asks_bind ih fun _ => Plan.asks_ended _
  refine Plan.asks_now (fun _ => ⟨rfl, rfl⟩) fun w => ?_
  rw [Course.plan_bind]
  exact Plan.asks_bind (heach (w.crew owner)) fun _ => Plan.asks_ended _

theorem asks_check (owner : Nat) (log : Log) (r : Resolved) :
    (checkCourse owner log r : Course σ _).plan.Asks (Asked.Placed dir) := by
  have hnotices : ∀ alive finished, (noticesCourse alive finished : Course σ _).plan.Asks
      (Asked.Placed dir) := by
    intro alive finished
    induction finished with
    | nil => exact Plan.asks_ended _
    | cons h hs ih =>
      refine Plan.asks_join fun status => ?_
      rw [Course.plan_bind]
      exact Plan.asks_bind ih fun _ => Plan.asks_ended _
  refine Plan.asks_now (fun _ => ⟨rfl, rfl⟩) fun w => ?_
  rw [Course.plan_bind]
  refine Plan.asks_bind (hnotices _ _) fun dead =>
    Plan.asks_now (fun _ => ⟨rfl, rfl⟩) fun w' => ?_
  dsimp only
  split_ifs
  · exact Plan.asks_ended _
  · rw [Course.plan_bind]
    exact Plan.asks_bind (asks_stop dir owner log r) fun _ => Plan.asks_ended _

theorem asks_plan (owner : Nat) (log : Log) (r : Resolved) :
    (plan owner dir log r : Plan σ _).Asks (Asked.Placed dir) := by
  unfold plan
  dsimp only
  cases action? (Text.trim ((r.get? "action").getD "start")) with
  | none => exact Plan.asks_ended _
  | some action =>
    cases action with
    | start => exact Plan.asks_bind (asks_startPairsPlan dir owner _) fun _ => Plan.asks_ended _
    | check => exact Plan.asks_bind (asks_check dir owner log r) fun _ => Plan.asks_ended _
    | stop => exact Plan.asks_bind (asks_stop dir owner log r) fun _ => Plan.asks_ended _

end HarasserUtility

/-- **Where a plugin has its commands run**, whatever it does. -/
theorem Errand.asks (e : Errand) (id : Nat) (command : Option (List String)) (log : Log)
    (r : Resolved) : (e.plan id command dir log r : Plan σ _).Asks (Asked.Placed dir) := by
  cases e with
  | commandLine c =>
    exact c.asks_plan (fun _ _ _ _ => .of_ne (by decide) rfl rfl)
      (fun _ _ _ _ _ => .of_wrapper) command log r
  | snippet => exact Snippet.asks_plan dir log r
  | harasser => exact HarasserUtility.asks_plan dir id log r

end Asks

/-! ## Nothing else is asked for -/

/-- Whether an executor that notes requests has noted no others than some, and the tasks make no
others. -/
structure World.Vouched (x : Executor σ) (rs : List Request) (w : World (σ × List Request)) :
    Prop where
  noted : w.host.2 ⊆ rs
  begins : ∀ b ∈ w.tasks.map Task.begin,
    ∃ request ∈ rs, b = HarasserUtility.task x.noting request

namespace World.Vouched

variable {x : Executor σ} {rs : List Request} {w w' : World (σ × List Request)}

theorem mono (hw : w.Vouched x rs) {rs' : List Request} (h : rs ⊆ rs') : w.Vouched x rs' where
  noted := List.Subset.trans hw.noted h
  begins b hb := by
    obtain ⟨request, hrequest, htask⟩ := hw.begins b hb
    exact ⟨request, h hrequest, htask⟩

/-- A change that tasks and the executor do not notice. -/
theorem of_unnoticed (hw : w.Vouched x rs) (h : Plan.Unnoticed w w') : w'.Vouched x rs where
  noted := h.1 ▸ hw.noted
  begins := h.2 ▸ hw.begins

/-- Tasks that first run ask for no more than all of them may ask for. -/
theorem noted_startQueued (x : Executor σ) (now : Nat) {ts : List (Task (σ × List Request))}
    (hts : ∀ b ∈ ts.map Task.begin, ∃ request ∈ rs, b = HarasserUtility.task x.noting request)
    {host : σ × List Request} (hhost : host.2 ⊆ rs) : (startQueued now ts host).2.2 ⊆ rs := by
  induction ts generalizing host with
  | nil => exact hhost
  | cons t ts ih =>
    rw [List.map_cons, List.forall_mem_cons] at hts
    obtain ⟨⟨request, hrequest, htask⟩, hts⟩ := hts
    have hafter : (t.begin host).2.2 ⊆ rs := by
      rw [htask]
      exact List.append_subset.mpr ⟨hhost, List.cons_subset.mpr ⟨hrequest, List.nil_subset _⟩⟩
    unfold startQueued
    split
    · exact ih hts hafter
    · exact ih hts hhost

theorem settle (hw : w.Vouched x rs) : w.settle.Vouched x rs where
  noted := by
    have hwoken : w.settle.host.2 = (startQueued w.now
      (w.tasks.map (wake fun _ due => due ≤ w.now)) w.host).2.2 := rfl
    rw [hwoken]
    refine noted_startQueued x w.now ?_ hw.noted
    rw [begins_map (begin_wake _)]
    exact hw.begins
  begins := by
    rw [begins_settle]
    exact hw.begins

/-- Waiting asks for nothing else. -/
theorem steady (x : Executor σ) (rs : List Request) :
    Steady fun w w' : World (σ × List Request) => w.Vouched x rs → w'.Vouched x rs where
  refl _ h := h
  trans h h' hw := h' (h hw)
  settle _ := settle
  moveTo w _ _ hw := hw.of_unnoticed ⟨rfl, begins_map (begin_wake _) w.tasks⟩
  abort w id hw := hw.of_unnoticed (Plan.unnoticed_abort id w)

theorem note (hw : w.Vouched x rs) (request : Request) :
    ({ w with host := (x.noting request w.host).2 } : World (σ × List Request)).Vouched x
      (rs ++ [request]) where
  noted := List.append_subset.mpr ⟨List.Subset.trans hw.noted (List.subset_append_left _ _),
    List.subset_append_right _ _⟩
  begins := (hw.mono (List.subset_append_left _ _)).begins

theorem enlist (hw : w.Vouched x rs) (owner : Nat) (stopScript : String) (request : Request) :
    (HarasserUtility.enlist owner stopScript (HarasserUtility.task x.noting request) w).Vouched x
      (rs ++ [request]) where
  noted := (hw.mono (List.subset_append_left _ _)).noted
  begins := by
    have htasks : (HarasserUtility.enlist owner stopScript (HarasserUtility.task x.noting request)
        w).tasks.map Task.begin =
          w.tasks.map Task.begin ++ [HarasserUtility.task x.noting request] := List.map_append
    rw [htasks, List.forall_mem_append]
    exact ⟨(hw.mono (List.subset_append_left _ _)).begins, List.forall_mem_singleton.mpr
      ⟨request, List.mem_append_right _ (List.mem_singleton.mpr rfl), rfl⟩⟩

/-- **A plan asks for nothing besides its trace**, and neither do its tasks. -/
theorem along (x : Executor σ) : Plan.Along x.noting fun as w w' =>
    ∀ rs, w.Vouched x rs → w'.Vouched x (rs ++ as.map Asked.request) where
  steady := by
    simp only [List.map_nil, List.append_nil]
    exact {
      refl := fun _ _ hw => hw
      trans := fun h h' rs hw => h' rs (h rs hw)
      settle := fun _ _ => settle
      moveTo := fun w time also rs => (steady x rs).moveTo w time also
      abort := fun w id rs => (steady x rs).abort w id }
  trans h h' rs hw := by
    rw [List.map_append, ← List.append_assoc]
    exact h' _ (h rs hw)
  unnoticed h rs hw := by
    rw [List.map_nil, List.append_nil]
    exact hw.of_unnoticed h
  ask a w rs hw := hw.note a.request
  launch a w owner stopScript _ rs hw := hw.enlist owner stopScript a.request

end World.Vouched

/-- **Exactly the trace of a plan is asked for** where no task asks for anything. -/
theorem World.Silent.along (x : Executor σ) : Plan.Along x.noting fun as w w' =>
    (∀ a ∈ as, a.purpose ≠ .trigger) → w.Silent →
      w'.Silent ∧ w'.host.2 = w.host.2 ++ as.map Asked.request where
  steady := {
    refl := fun w _ hw => ⟨hw, (List.append_nil _).symm⟩
    trans := fun h h' has hw => by
      obtain ⟨hw₁, hnotes⟩ := h has hw
      obtain ⟨hw', hnotes'⟩ := h' has hw₁
      exact ⟨hw', by rw [hnotes', hnotes]; simp⟩
    settle := fun w _ hw => by
      obtain ⟨hw', hnotes⟩ := World.settle_of_silent hw
      exact ⟨hw', by rw [hnotes]; simp⟩
    moveTo := fun w _ _ _ hw =>
      ⟨hw.of_begins (World.begins_map (World.begin_wake _) w.tasks), (List.append_nil _).symm⟩
    abort := fun w id _ hw =>
      ⟨hw.of_begins (Plan.unnoticed_abort id w).2, (List.append_nil _).symm⟩ }
  trans h h' has hw := by
    obtain ⟨has, has'⟩ := List.forall_mem_append.mp has
    obtain ⟨hw₁, hnotes⟩ := h has hw
    obtain ⟨hw', hnotes'⟩ := h' has' hw₁
    exact ⟨hw', by rw [hnotes', hnotes, List.map_append, List.append_assoc]⟩
  unnoticed h _ hw := ⟨hw.of_begins h.2, by rw [h.1]; simp⟩
  ask a w _ hw := ⟨hw, rfl⟩
  launch a w owner stopScript ha has := absurd ha (has a (List.mem_singleton.mpr rfl))

/-! ## Errands, one after another -/

/-- What an errand in a context asks for, and the world after it. -/
def Errand.run (e : Errand) (c : Context σ) (invoke : Role → String → Dict String → Act σ Log)
    (id : Nat) (log : Log) (r : Resolved) (w : World σ) : List Asked × World σ :=
  ((e.plan id c.moduleCommand c.scratchDir log r).trace c.executor w,
    (e.plugin.execute id ⟨invoke, c.executor, c.moduleCommand, c.scratchDir⟩ log r w).2)

/-- What has been asked for, and the world, after some errands in a context. In between, the
environment may change and whatever else tasks and the executor do not notice, and time may pass. -/
inductive Errands (c : Context (σ × List Request)) :
    List Asked → World (σ × List Request) → Prop where
  | start (host : σ) (epoch : Instant) (wallMoves : Bool) :
    Errands c [] (World.start (host, []) epoch wallMoves)
  | run {asked : List Asked} {w : World (σ × List Request)} (h : Errands c asked w) (e : Errand)
      (invoke : Role → String → Dict String → Act (σ × List Request) Log) (id : Nat) (log : Log)
      (r : Resolved) :
    Errands c (asked ++ (e.run c invoke id log r w).1) (e.run c invoke id log r w).2
  | elsewhere {asked : List Asked} {w w' : World (σ × List Request)} (h : Errands c asked w)
      (hw : Plan.Unnoticed w w') : Errands c asked w'
  | wait {asked : List Asked} {w : World (σ × List Request)} (h : Errands c asked w) (ms : Nat) :
    Errands c asked (Act.wait ms w).2

theorem Errands.vouched {x : Executor σ} {c : Context (σ × List Request)}
    (hc : c.executor = x.noting) {asked : List Asked} {w : World (σ × List Request)}
    (h : Errands c asked w) : w.Vouched x (asked.map Asked.request) := by
  induction h with
  | start host epoch wallMoves => exact ⟨List.Subset.refl _, List.forall_mem_nil _⟩
  | @run asked w _ e invoke id log r ih =>
    rw [Errand.run, Errand.execute_eq, List.map_append]
    dsimp only
    rw [hc]
    exact (World.Vouched.along x).act (e.asks c.scratchDir id c.moduleCommand log r w) _ ih
  | elsewhere _ hw ih => exact ih.of_unnoticed hw
  | wait _ ms ih => exact (World.Vouched.steady x _).wait ms _ ih

/-- **Where the commands of plugins run.** After any errands in a context, all that its executor was
asked for, commands for modules apart, had the environment of the moment when it was asked for, and
the scratch directory; but stop scripts had no directory. -/
theorem Errands.placed {x : Executor σ} {c : Context (σ × List Request)}
    (hc : c.executor = x.noting) {asked : List Asked} {w : World (σ × List Request)}
    (h : Errands c asked w) :
    (∀ request ∈ w.host.2, ∃ a ∈ asked, a.request = request) ∧
      ∀ a ∈ asked, a.Placed c.scratchDir := by
  refine ⟨fun request hrequest => List.mem_map.mp ((h.vouched hc).noted hrequest), ?_⟩
  induction h with
  | start host epoch wallMoves => exact List.forall_mem_nil _
  | run _ e invoke id log r ih =>
    exact List.forall_mem_append.mpr ⟨ih, (e.asks c.scratchDir id c.moduleCommand log r _).of_mem⟩
  | elsewhere _ _ ih => exact ih
  | wait _ _ ih => exact ih

/-! ## A stop script in another directory -/

/-- Every command takes a minute. -/
def minuteExecutor : Executor Unit := fun _ host => (⟨60000, .ok ⟨0, "", "", false⟩⟩, host)

/-- A context with a scratch directory and the utility for harassers. -/
def scratchContext : Context (Unit × List Request) :=
  ⟨Uuid.ofNat 1, Sections.empty, minuteExecutor.noting, none, some "/scratch", Dict.empty,
    Dict.ofList [("Harasser", ⟨0, .utility, HarasserUtility.plugin⟩)]⟩

def harasserValues (action : String) : Dict String :=
  Dict.ofList [("action", action), ("trigger_scripts", "load"), ("stop_scripts", "unload")]

/-- A world with a variable set. -/
def leveled : World (Unit × List Request) :=
  { World.start ((), []) ⟨0, 0⟩ false with env := Dict.ofList [("LEVEL", "3")] }

/-- A call of the utility. -/
def harasserCall (action : String) (w : World (Unit × List Request)) :
    List Asked × World (Unit × List Request) :=
  Errand.harasser.run scratchContext scratchContext.invoke 0 (Log.new "Harasser" "Harasser")
    ⟨harasserValues action, Dict.empty⟩ w

def startCall : List Asked × World (Unit × List Request) := harasserCall "start" leveled

def stopCall : List Asked × World (Unit × List Request) := harasserCall "stop" startCall.2

/-- A harasser that is started and stopped. -/
theorem Errands.placed_startAndStop :
    Errands scratchContext ([] ++ startCall.1 ++ stopCall.1) stopCall.2 ∧
      scratchContext.executor = minuteExecutor.noting ∧
      ([] ++ startCall.1 ++ stopCall.1).map Asked.purpose = [.trigger, .stopScript] ∧
      (∀ request ∈ stopCall.2.host.2, ∃ a ∈ [] ++ startCall.1 ++ stopCall.1,
        Asked.request a = request) ∧
      ∀ a ∈ [] ++ startCall.1 ++ stopCall.1, Asked.Placed scratchContext.scratchDir a := by
  have h₀ : Errands scratchContext [] leveled := .elsewhere (.start () ⟨0, 0⟩ false) ⟨rfl, rfl⟩
  have h₁ : Errands scratchContext ([] ++ startCall.1) startCall.2 :=
    h₀.run .harasser scratchContext.invoke 0 (Log.new "Harasser" "Harasser")
      ⟨harasserValues "start", Dict.empty⟩
  have h₂ : Errands scratchContext ([] ++ startCall.1 ++ stopCall.1) stopCall.2 :=
    h₁.run .harasser scratchContext.invoke 0 (Log.new "Harasser" "Harasser")
      ⟨harasserValues "stop", Dict.empty⟩
  have hexecutor : scratchContext.executor = minuteExecutor.noting := rfl
  exact ⟨h₂, hexecutor, by decide +kernel, Errands.placed hexecutor h₂⟩

/-- The world after the utility was invoked to start a harasser, and a second later to stop it. -/
def startedAndStopped : World (Unit × List Request) :=
  let w := (scratchContext.invoke .utility "Harasser" (harasserValues "start") leveled).2
  (scratchContext.invoke .utility "Harasser" (harasserValues "stop") (Act.wait 1000 w).2).2

/-- **A stop script does not run in the scratch directory**, where its harasser runs. -/
theorem not_all_in_scratchDir :
    startedAndStopped.host.2.map (fun r => (r.program, r.env.get? "LEVEL", r.cwd)) =
      [("load", some "3", some "/scratch"), ("unload", some "3", none)] ∧
    ¬ ∀ request ∈ startedAndStopped.host.2, request.cwd = scratchContext.scratchDir := by
  have hcwds : startedAndStopped.host.2.map Request.cwd = [some "/scratch", none] := by
    decide +kernel
  refine ⟨by decide +kernel, fun hall => ?_⟩
  have hnone : none ∈ startedAndStopped.host.2.map Request.cwd := by
    rw [hcwds]
    exact List.mem_cons_of_mem _ (List.mem_singleton.mpr rfl)
  obtain ⟨request, hrequest, hcwd⟩ := List.mem_map.mp hnone
  rw [hall request hrequest] at hcwd
  cases hcwd

end Qualification
