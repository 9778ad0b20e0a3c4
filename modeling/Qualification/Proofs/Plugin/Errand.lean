import Qualification.Plugin.CommandLine
import Qualification.Plugin.Snippet
import Qualification.Proofs.Plugin.Plan
/-!
# The plans of the standard plugins

Three of the standard plugins have commands run. What each of them does is an errand, and has a
plan.

* `Modules.plan`, `CommandLine.plan`, `Snippet.plan`, `HarasserUtility.plan`;
* `Errand`, `Errand.plan`;
* **`Errand.execute_eq`**: what the plugins do is the activity of these plans.
-/

namespace Qualification

variable {σ : Type}

/-- A log and a result with what came of a command. -/
def Log.record (log : Log) : Except Fault Output → Log × Except Fault Unit
  | .error fault => (log, .error fault)
  | .ok out =>
    ({ log with status := out.status, stdout := out.stdout, stderr := out.stderr }, .ok ())

/-- A command that is waited for, and recorded in a log. -/
theorem perform_record (executor : Executor σ) (purpose : Purpose) (request : Request) (log : Log) :
    (do
      match ← Act.perform executor request with
      | .error fault => return (log, .error fault)
      | .ok out =>
        return ({ log with status := out.status, stdout := out.stdout, stderr := out.stderr },
          .ok ()) : Act σ (Log × Except Fault Unit)) =
      (Plan.ask purpose [] request fun answer => .ended (log.record answer)).act executor := by
  rw [Plan.act_ask_nil]
  refine congrArg (Act.perform executor request >>= ·) (funext fun answer => ?_)
  cases answer <;> rfl

/-! ## Modules -/

namespace Modules

/-- The plan for modules, after an outcome of others. -/
def planFrom (command : List String) (action : Action) (o : Outcome) :
    List String → Plan σ (Except Fault Outcome)
  | [] => .ended (.ok o)
  | m :: ms => .ask .wrapper [] (request command action m) fun
    | .error fault => .ended (.error fault)
    | .ok out =>
      if out.succeeded then planFrom command action (o.add out) ms
      else .ended (.ok (o.failAt action m out))

theorem planFrom_cons (command : List String) (action : Action) (o : Outcome) (m : String)
    (ms : List String) : ∃ next : Except Fault Output → Plan σ (Except Fault Outcome),
      planFrom command action o (m :: ms) = .ask .wrapper [] (request command action m) next ∧
      (∀ fault, next (.error fault) = .ended (.error fault)) ∧
      ∀ out, next (.ok out) = if out.succeeded then planFrom command action (o.add out) ms
        else .ended (.ok (o.failAt action m out)) :=
  ⟨_, rfl, fun _ => rfl, fun _ => rfl⟩

/-- The outcome where there is no command for modules. -/
def Outcome.missing : Outcome :=
  { Outcome.nothing with status := 1, stderr := "Module capability was not found" }

/-- The plan for modules. -/
def plan (command : Option (List String)) (action : Action) (modules : List String) :
    Plan σ (Except Fault Outcome) :=
  match command with
  | none => .ended (.ok .missing)
  | some command => planFrom command action .nothing (named modules)

variable (executor : Executor σ)

theorem runFrom_eq (command : List String) (action : Action) (o : Outcome) (ms : List String) :
    runFrom executor command action o ms = (planFrom command action o ms).act executor := by
  induction ms generalizing o with
  | nil => rfl
  | cons m ms ih =>
    rw [runFrom, planFrom, Plan.act_ask_nil]
    refine congrArg _ (funext fun r => ?_)
    cases r with
    | error fault => rfl
    | ok out =>
      dsimp only
      cases out.succeeded with
      | true => exact ih (o.add out)
      | false => rfl

theorem run_eq (command : Option (List String)) (action : Action) (modules : List String) :
    run executor command action modules = (plan command action modules).act executor := by
  cases command with
  | none => rfl
  | some command => exact runFrom_eq executor command action .nothing (named modules)

end Modules

/-! ## Command lines -/

namespace CommandLine

variable (c : CommandLine) (dir : Option String) (log : Log) (r : Resolved)

/-- The plan of the command alone. -/
def commandPlan : Plan σ (Log × Except Fault Unit) :=
  match Request.ofWords? (c.expand r) with
  | none => .ended (log, .error (.ofText s!"'{c.name}' has an empty command"))
  | some request => .now id fun w =>
    .ask .command [] { request with env := w.env, cwd := dir } fun answer =>
      .ended ((log.withExtra "command" request.display).record answer)

theorem commandPlan_of_cons {program : String} {args : List String}
    (h : c.expand r = program :: args) : (c.commandPlan dir log r : Plan σ _) =
      .now id fun w => .ask .command [] ⟨program, args, w.env, dir, none⟩ fun answer =>
        .ended ((log.withExtra "command"
          (Request.display ⟨program, args, Dict.empty, none, none⟩)).record answer) := by
  rw [commandPlan, h]
  rfl

theorem commandPlan_of_nil (h : c.expand r = []) : (c.commandPlan dir log r : Plan σ _) =
    .ended (log, .error (.ofText s!"'{c.name}' has an empty command")) := by
  rw [commandPlan, h]
  rfl

/-- What is left of the command and of unloading its modules. -/
def settled (x : Log × Except Fault Unit) :
    Except Fault Modules.Outcome → Log × Except Fault Unit
  | .ok unloaded =>
    if !unloaded.succeeded && x.1.succeeded then (x.1.fail unloaded.status unloaded.stderr, x.2)
    else x
  | .error fault => (x.1, match x.2 with
    | .error first => .error first
    | .ok () => .error fault)

/-- The changes of modules, if they have been run. -/
def changesOf : Except Fault Modules.Outcome → List EnvChange
  | .ok o => o.changes
  | .error _ => []

def applying (cs : List EnvChange) (w : World σ) : World σ := { w with env := w.env.apply cs }

/-- The plan of unloading the modules, whatever came of the command. -/
def unloadPlan (command : Option (List String)) (x : Log × Except Fault Unit) :
    Plan σ (Log × Except Fault Unit) :=
  (Modules.plan command .unload (r.list modulesOption)).bind fun unloaded =>
    .now (applying (changesOf unloaded)) fun _ => .ended (settled x unloaded)

/-- The plan of the command with its modules loaded. -/
def loadedPlan (command : Option (List String)) : Plan σ (Log × Except Fault Unit) :=
  (c.commandPlan dir log r).bind (unloadPlan r command)

/-- The plan after the loading. -/
def afterLoadingPlan (command : Option (List String)) :
    Except Fault Modules.Outcome → Plan σ (Log × Except Fault Unit)
  | .error fault => .ended (log, .error fault)
  | .ok loaded => .now (applying loaded.changes) fun _ =>
    if loaded.succeeded then c.loadedPlan dir log r command
    else .ended (log.fail loaded.status loaded.stderr, .ok ())

/-- The plan of a command line. -/
def plan (command : Option (List String)) : Plan σ (Log × Except Fault Unit) :=
  if (r.list modulesOption).isEmpty then c.commandPlan dir log r
  else (Modules.plan command .load (r.list modulesOption)).bind
    (c.afterLoadingPlan dir log r command)

theorem plan_of_modules (h : r.list modulesOption ≠ []) (command : Option (List String)) :
    (c.plan dir log r command : Plan σ _) =
      (Modules.plan command .load (r.list modulesOption)).bind
        (c.afterLoadingPlan dir log r command) := by
  rw [plan, if_neg fun hempty => h (List.isEmpty_iff.mp hempty)]

variable (s : Services σ)

theorem runCommand_eq :
    c.runCommand s log r = (c.commandPlan s.scratchDir log r).act s.executor := by
  unfold runCommand commandPlan
  cases Request.ofWords? (c.expand r) with
  | none => rfl
  | some request =>
    funext w
    let request' := { request with env := w.env, cwd := s.scratchDir }
    exact congrFun (perform_record s.executor .command request'
      (log.withExtra "command" request'.display)) w

theorem execute_eq :
    c.execute s log r = (c.plan s.scratchDir log r s.moduleCommand).act s.executor := by
  unfold execute plan
  dsimp only
  cases (r.list modulesOption).isEmpty with
  | true => exact c.runCommand_eq log r s
  | false =>
    rw [if_neg Bool.false_ne_true, if_neg Bool.false_ne_true, Plan.act_bind, Modules.run_eq]
    refine congrArg _ (funext fun loading => ?_)
    cases loading with
    | error fault => rfl
    | ok loaded =>
      funext w
      change (if !loaded.succeeded then Pure.pure (log.fail loaded.status loaded.stderr, .ok ())
        else _ : Act σ (Log × Except Fault Unit)) (applying loaded.changes w) = _
      change _ = (if loaded.succeeded then c.loadedPlan s.scratchDir log r s.moduleCommand
        else .ended (log.fail loaded.status loaded.stderr, .ok ())).act s.executor
          (applying loaded.changes w)
      cases loaded.succeeded with
      | false => rfl
      | true =>
        refine congrFun ?_ (applying loaded.changes w)
        rw [if_pos rfl, loadedPlan, Plan.act_bind, ← c.runCommand_eq]
        refine congrArg (c.runCommand s log r >>= ·) (funext fun x => ?_)
        rw [unloadPlan, Plan.act_bind, ← Modules.run_eq]
        refine congrArg (Modules.run s.executor s.moduleCommand .unload _ >>= ·)
          (funext fun unloading => ?_)
        obtain ⟨log', result⟩ := x
        cases unloading with
        | ok unloaded =>
          funext w
          unfold settled
          dsimp only
          split_ifs <;> rfl
        | error fault => cases result <;> rfl

end CommandLine

/-! ## Snippets -/

namespace Snippet

/-- The plan of a snippet. -/
def plan (dir : Option String) (log : Log) (r : Resolved) : Plan σ (Log × Except Fault Unit) :=
  match r.nonempty? "command" with
  | none => .ended (log.fail 1 "No command given", .ok ())
  | some script => .now id fun w =>
    .ask .snippet [] { Request.script script with env := w.env, cwd := dir } fun answer =>
      .ended (log.record answer)

theorem execute_eq (s : Services σ) (log : Log) (r : Resolved) :
    execute s log r = (plan s.scratchDir log r).act s.executor := by
  unfold execute plan
  cases r.nonempty? "command" with
  | none => rfl
  | some script =>
    funext w
    let request := { Request.script script with env := w.env, cwd := s.scratchDir }
    exact congrFun (perform_record s.executor .snippet request log) w

end Snippet

/-! ## Harassers -/

namespace HarasserUtility

/-- The plan of starting harassers. -/
def startPairsPlan (owner : Nat) (dir : Option String) :
    List (String × String) → Plan σ (List Nat)
  | [] => .ended []
  | (trigger, stopScript) :: rest =>
    match Request.ofWords? (Text.words trigger) with
    | none => startPairsPlan owner dir rest
    | some request => .now id fun w =>
      .launch owner stopScript { request with env := w.env, cwd := dir } fun id =>
        (startPairsPlan owner dir rest).bind fun ids => .ended (id :: ids)

/-- What is written of harassers that were started. -/
def startedLog (log : Log) (ids : List Nat) : Log :=
  { log with stdout := s!"Started {ids.length} harasser(s)", status := 0 }.withExtra "harassers"
    (Text.joinWith "," (ids.map toString))

/-- The plan of the utility. -/
def plan (owner : Nat) (dir : Option String) (log : Log) (r : Resolved) :
    Plan σ (Log × Except Fault Unit) :=
  let word := Text.trim ((r.get? "action").getD "start")
  match action? word with
  | some .start =>
    (startPairsPlan owner dir ((r.list "trigger_scripts").zip (r.list "stop_scripts"))).bind
      fun ids => .ended (startedLog log ids, .ok ())
  | some .check => (checkCourse owner log r).plan.bind fun log => .ended (log, .ok ())
  | some .stop => (stopCourse owner log r).plan.bind fun log => .ended (log, .ok ())
  | none => .ended (log, .error (.ofText s!"unknown harasser action '{word}'"))

variable (s : Services σ)

theorem startPairs_eq (owner : Nat) (pairs : List (String × String)) :
    startPairs owner s pairs = (startPairsPlan owner s.scratchDir pairs).act s.executor := by
  induction pairs with
  | nil => rfl
  | cons pair pairs ih =>
    obtain ⟨trigger, stopScript⟩ := pair
    rw [startPairs, startPairsPlan]
    cases Request.ofWords? (Text.words trigger) with
    | none => exact ih
    | some request =>
      funext w
      change (startPairs owner s pairs >>= fun ids => Pure.pure (w.tasks.length :: ids)) _ =
        ((startPairsPlan owner s.scratchDir pairs).bind fun ids =>
          Plan.ended (w.tasks.length :: ids)).act s.executor _
      rw [Plan.act_bind, ih]
      rfl

theorem execute_eq (owner : Nat) (log : Log) (r : Resolved) :
    execute owner s log r = (plan owner s.scratchDir log r).act s.executor := by
  unfold execute plan
  dsimp only
  cases action? (Text.trim ((r.get? "action").getD "start")) with
  | none => rfl
  | some action =>
    cases action with
    | start =>
      change start owner s log r >>= _ = _
      rw [start, Plan.act_bind, startPairs_eq, bind_assoc]
      rfl
    | check =>
      change check owner s log r >>= _ = _
      rw [Plan.act_bind, Course.act_plan, check_eq]
      rfl
    | stop =>
      change stop owner s log r >>= _ = _
      rw [Plan.act_bind, Course.act_plan, stop_eq]
      rfl

end HarasserUtility

/-! ## Errands -/

/-- What one of the plugins that have commands run does. -/
inductive Errand where
  | commandLine (c : CommandLine)
  | snippet
  | harasser

namespace Errand

/-- The plugin. -/
def plugin : Errand → Plugin σ
  | commandLine c => c.plugin
  | snippet => Snippet.plugin
  | harasser => HarasserUtility.plugin

/-- The plan of an instance of the plugin. -/
def plan (e : Errand) (id : Nat) (command : Option (List String)) (dir : Option String) (log : Log)
    (r : Resolved) : Plan σ (Log × Except Fault Unit) :=
  match e with
  | commandLine c => c.plan dir log r command
  | snippet => Snippet.plan dir log r
  | harasser => HarasserUtility.plan id dir log r

/-- **What the plugins do** is the activity of their plans. -/
theorem execute_eq (e : Errand) (id : Nat) (s : Services σ) (log : Log) (r : Resolved) :
    e.plugin.execute id s log r =
      (e.plan id s.moduleCommand s.scratchDir log r).act s.executor := by
  cases e with
  | commandLine c => exact c.execute_eq log r s
  | snippet => exact Snippet.execute_eq s log r
  | harasser =>
    simp only [plugin, HarasserUtility.plugin, Plugin.simple]
    exact HarasserUtility.execute_eq s id log r

end Errand

end Qualification
