import Qualification.Proofs.Plugin.Modules
import Qualification.Proofs.Plugin.Place
/-!
# What went wrong first

A command line with modules loads them, runs its command and unloads them again. It tells what went
wrong first, with one exception: where the command failed by its status, and modules then cannot be
unloaded at all, that status is lost.

* `Act.Ends`: activities that come to their end if there is no limit;
* `UpToFailure`: commands that are asked for in order, up to the first that does not succeed;
* `Verdict`: what comes of one phase, or of the whole;
* `Verdict.ofResult_settled`, `Verdict.of_whole`: what is made of the verdicts of the phases;
* `Modules.carried_plan`, `CommandLine.carried_plan`: the phases one by one, and all of them;
* `CommandLine.Phases`, `CommandLine.Account`: what is asked for, and what is told of it;
* `CommandLine.noted_execute`: an executor notes exactly that;
* **`CommandLine.verdict_execute`**: both, for every command line with modules;
* `CommandLine.status_lost`: the exception.
-/

namespace Qualification

variable {σ α β : Type}

/-! ## Activities without a limit -/

namespace Act

/-- Whether an activity comes to its end if there is no limit. -/
def Ends (x : Act σ α) : Prop :=
  ∀ w : World σ, w.deadline = none → ∃ a w', x w = (.done a, w') ∧ w'.deadline = none

theorem ends_pure (a : α) : (Pure.pure a : Act σ α).Ends := fun w hw => ⟨a, w, rfl, hw⟩

theorem Ends.bind {x : Act σ α} {f : α → Act σ β} (hx : x.Ends) (hf : ∀ a, (f a).Ends) :
    (x >>= f).Ends := by
  intro w hw
  obtain ⟨a, w₁, ha, hw₁⟩ := hx w hw
  obtain ⟨b, w', hb, hw'⟩ := hf a w₁ hw₁
  exact ⟨b, w', (bind_of_done ha f).trans hb, hw'⟩

theorem ends_modify {f : World σ → World σ} (hf : ∀ w, (f w).deadline = w.deadline) :
    (modify f).Ends := fun w hw => ⟨(), f w, rfl, (hf w).trans hw⟩

theorem ends_wait (ms : Nat) : (wait ms : Act σ Unit).Ends := by
  intro w hw
  rcases wait_cases ms w with ⟨w₁, hdone, hlapses, -⟩ | hcut
  · exact ⟨(), w₁, hdone, (hlapses.steady World.steady_deadline).trans hw⟩
  · exact absurd hw hcut.limited

theorem ends_perform (executor : Executor σ) (request : Request) :
    (perform executor request).Ends :=
  Ends.bind (fun w hw => ⟨_, { w with host := (executor request w.host).2 }, rfl, hw⟩)
    fun _ => (ends_wait _).bind fun _ => ends_pure _

end Act

/-! ## Up to the first failure -/

namespace Asked

/-- Whether a command ended with success. -/
def succeeded (a : Asked) : Bool :=
  match a.answer with
  | some (.ok out) => out.succeeded
  | _ => false

end Asked

/-- Whether commands were asked for in order, up to the first one that did not succeed. -/
structure UpToFailure (rs : List Request) (as : List Asked) : Prop where
  order : as.map Asked.request <+: rs
  before : ∀ a ∈ as.dropLast, a.succeeded = true
  stop : as.map Asked.request = rs ∨ ∃ a ∈ as.getLast?, a.succeeded = false

namespace UpToFailure

variable {r : Request} {rs : List Request} {a : Asked} {as : List Asked}

theorem nil : UpToFailure [] [] := ⟨List.nil_prefix, List.forall_mem_nil _, .inl rfl⟩

theorem of_failure (ha : a.succeeded = false) (hr : a.request = r) : UpToFailure (r :: rs) [a] where
  order := hr ▸ ⟨rs, rfl⟩
  before := List.forall_mem_nil _
  stop := .inr ⟨a, rfl, ha⟩

theorem cons (h : UpToFailure rs as) (ha : a.succeeded = true) (hr : a.request = r) :
    UpToFailure (r :: rs) (a :: as) := by
  cases as with
  | nil =>
    refine ⟨hr ▸ ⟨rs, rfl⟩, List.forall_mem_nil _, .inl ?_⟩
    obtain hall | ⟨b, hb, -⟩ := h.stop
    · rw [List.map_cons, hall, hr]
    · cases hb
  | cons b bs =>
    refine ⟨?_, ?_, ?_⟩
    · rw [List.map_cons, hr]
      exact List.cons_prefix_cons.mpr ⟨rfl, h.order⟩
    · rw [List.dropLast_cons_cons]
      exact List.forall_mem_cons.mpr ⟨ha, h.before⟩
    · rw [List.getLast?_cons_cons, List.map_cons, hr]
      exact h.stop.imp_left (congrArg (r :: ·))

end UpToFailure

/-! ## Verdicts -/

/-- What comes of something. -/
inductive Verdict where
  | passed
  | failed (status : Int) (stderr : String)
  | fault (f : Fault)
  deriving DecidableEq

namespace Verdict

/-- The first one that is not a success, of those that there are. -/
def first (vs : List (Option Verdict)) : Verdict :=
  ((vs.filterMap id).find? (· != passed)).getD passed

/-- What comes of a command and of unloading its modules. -/
def settle : Verdict → Verdict → Verdict
  | passed, v => v
  | failed _ _, fault f => fault f
  | v, _ => v

/-- What comes of loading modules, of a command, and of unloading the modules. -/
def whole : (load command unload : Option Verdict) → Option Verdict
  | some passed, command, unload => command.bind fun v => unload.map v.settle
  | load, _, _ => load

/-- What an answer tells. -/
def ofAnswer : Except Fault Output → Verdict
  | .ok out => if out.succeeded then passed else failed out.status out.stderr
  | .error f => fault f

/-- What an outcome of modules tells. -/
def ofOutcome : Except Fault Modules.Outcome → Verdict
  | .ok o => if o.succeeded then passed else failed o.status o.stderr
  | .error f => fault f

/-- What a log and a result tell. -/
def ofResult : Log × Except Fault Unit → Verdict
  | (log, .ok ()) => if log.succeeded then passed else failed log.status log.stderr
  | (_, .error f) => fault f

theorem ofResult_record (log : Log) (answer : Except Fault Output) :
    ofResult (log.record answer) = ofAnswer answer := by
  cases answer <;> rfl

/-- **What is left of a command and of unloading its modules** tells of both. -/
theorem ofResult_settled (x : Log × Except Fault Unit) (unloading : Except Fault Modules.Outcome) :
    ofResult (CommandLine.settled x unloading) = settle (ofResult x) (ofOutcome unloading) := by
  obtain ⟨log, result⟩ := x
  cases result with
  | error first =>
    -- The fault of the command stays, whatever is written into the log.
    cases unloading with
    | error fault => rfl
    | ok unloaded =>
      unfold CommandLine.settled
      dsimp only
      split_ifs <;> rfl
  | ok u =>
    cases unloading with
    | error fault =>
      cases hlog : log.succeeded <;>
        simp [CommandLine.settled, ofResult, ofOutcome, settle, hlog]
    | ok unloaded =>
      have hfail : (log.fail unloaded.status unloaded.stderr).succeeded = unloaded.succeeded := rfl
      have hstatus : (log.fail unloaded.status unloaded.stderr).status = unloaded.status := rfl
      have hstderr : (log.fail unloaded.status unloaded.stderr).stderr = unloaded.stderr := rfl
      cases hlog : log.succeeded <;> cases hunloaded : unloaded.succeeded <;>
        simp [CommandLine.settled, ofResult, ofOutcome, settle, hlog, hunloaded, hfail, hstatus,
          hstderr]

/-- This is what went wrong first, unless a status is lost to a fault. -/
theorem first_eq_settle {v u : Verdict}
    (h : ∀ status stderr f, ¬ (v = failed status stderr ∧ u = fault f)) :
    first [some passed, some v, some u] = settle v u := by
  cases v with
  | passed => cases u <;> rfl
  | failed status stderr =>
    cases u with
    | fault f => exact absurd ⟨rfl, rfl⟩ (h status stderr f)
    | passed => rfl
    | failed status' stderr' => rfl
  | fault f => rfl

theorem first_of_ne {v : Verdict} (hv : v ≠ passed) (vs : List (Option Verdict)) :
    first (some v :: vs) = v := by
  have hne : (v != passed) = true := bne_iff_ne.mpr hv
  have hfind : ((some v :: vs).filterMap id).find? (· != passed) = some v := by
    rw [List.filterMap_cons_some (f := id) rfl, List.find?_cons, hne]
  rw [first, hfind]
  rfl

/-- **What comes of the whole** is what went wrong first, unless a status is lost to a fault. -/
theorem of_whole {load command unload : Option Verdict} {v : Verdict}
    (h : whole load command unload = some v) :
    (∀ status stderr f, load = some passed → command = some (failed status stderr) →
      unload = some (fault f) → v = fault f) ∧
    ((∀ status stderr f, ¬ (command = some (failed status stderr) ∧ unload = some (fault f))) →
      v = first [load, command, unload]) := by
  refine ⟨?_, fun hkept => ?_⟩
  · rintro status stderr f rfl rfl rfl
    exact (Option.some.inj h).symm
  · cases load with
    | none => cases h
    | some l =>
      by_cases hl : l = passed
      · subst hl
        obtain ⟨c, rfl, hc⟩ := Option.bind_eq_some_iff.mp h
        obtain ⟨u, rfl, rfl⟩ := Option.map_eq_some_iff.mp hc
        refine (first_eq_settle fun status stderr f hlost => ?_).symm
        exact hkept status stderr f ⟨congrArg some hlost.1, congrArg some hlost.2⟩
      · rw [first_of_ne hl]
        cases l with
        | passed => exact absurd rfl hl
        | failed status stderr => exact (Option.some.inj h).symm
        | fault f => exact (Option.some.inj h).symm

end Verdict

/-! ## Modules -/

namespace Modules

/-- The commands for some modules. -/
def requests (command : Option (List String)) (action : Action) (modules : List String) :
    List Request :=
  match command with
  | none => []
  | some words => modules.map (request words action)

/-- What the answers for some modules tell, with what was written before them; nothing if one is
missing. -/
def verdictFrom? (action : Action) (stderr : String) : List String → List Asked → Option Verdict
  | [], _ => some .passed
  | _ :: _, [] => none
  | m :: ms, a :: as =>
    match a.answer with
    | none => none
    | some (.error f) => some (.fault f)
    | some (.ok out) =>
      if out.succeeded then verdictFrom? action (stderr ++ out.stderr) ms as
      else some (.failed out.status
        (stderr ++ out.stderr ++ s!"Attempt to {action.word} environment module {m} failed"))

/-- What the answers for some modules tell. -/
def verdict? (command : Option (List String)) (action : Action) (modules : List String)
    (as : List Asked) : Option Verdict :=
  match command with
  | none => some (.failed 1 "Module capability was not found")
  | some _ => verdictFrom? action "" modules as

theorem carried_planFrom (executor : Executor σ) (words : List String) (action : Action)
    (ms : List String) {o : Outcome} (ho : o.succeeded = true) (w : World σ) :
    let p : Plan σ (Except Fault Outcome) := planFrom words action o ms
    UpToFailure (ms.map (request words action)) (p.trace executor w) ∧
      (p.act executor w).1.result?.map Verdict.ofOutcome =
        verdictFrom? action o.stderr ms (p.trace executor w) := by
  induction ms generalizing o w with
  | nil =>
    refine ⟨.nil, ?_⟩
    change some (if o.succeeded then Verdict.passed else .failed o.status o.stderr) = some .passed
    rw [if_pos ho]
  | cons m ms ih =>
    intro p
    obtain ⟨next, hask, hfault, hok⟩ := planFrom_cons (σ := σ) words action o m ms
    rw [show p = _ from hask, List.map_cons]
    rcases Plan.ask_cases executor .wrapper [] (request words action m) next w with
      ⟨r, w₁, hact, htrace⟩ | ⟨hend, htrace⟩
    · rw [hact, htrace]
      cases r with
      | error fault =>
        rw [hfault]
        exact ⟨.of_failure rfl rfl, rfl⟩
      | ok out =>
        rw [hok, verdictFrom?]
        dsimp only
        cases hout : out.succeeded with
        | true =>
          obtain ⟨hupTo, hverdict⟩ := ih (o := o.add out) ho w₁
          exact ⟨hupTo.cons hout rfl, hverdict⟩
        | false =>
          have hfailed : (o.failAt action m out).succeeded = false := hout
          refine ⟨.of_failure hout rfl, ?_⟩
          change some (if (o.failAt action m out).succeeded then Verdict.passed else _) = _
          rw [hfailed]
          rfl
    · rw [htrace, Ending.result?_eq_none hend]
      exact ⟨.of_failure rfl rfl, rfl⟩

theorem carried_plan (executor : Executor σ) (command : Option (List String)) (action : Action)
    (modules : List String) (w : World σ) :
    let p : Plan σ (Except Fault Outcome) := plan command action modules
    UpToFailure (requests command action (named modules)) (p.trace executor w) ∧
      (p.act executor w).1.result?.map Verdict.ofOutcome =
        verdict? command action (named modules) (p.trace executor w) := by
  cases command with
  | none => exact ⟨.nil, rfl⟩
  | some words => exact carried_planFrom executor words action (named modules) rfl w

theorem ends_run (executor : Executor σ) (command : Option (List String)) (action : Action)
    (modules : List String) : (run executor command action modules).Ends := by
  cases command with
  | none => exact Act.ends_pure _
  | some words =>
    change (runFrom executor words action .nothing (named modules)).Ends
    generalize Outcome.nothing = o
    induction named modules generalizing o with
    | nil => exact Act.ends_pure _
    | cons m ms ih =>
      refine (Act.ends_perform executor _).bind fun r => ?_
      cases r with
      | error fault => exact Act.ends_pure _
      | ok out =>
        dsimp only
        split_ifs
        · exact ih _
        · exact Act.ends_pure _

end Modules

/-! ## Command lines -/

namespace CommandLine

variable (c : CommandLine) (s : Services σ) (log : Log) (r : Resolved)

/-- What the answer to the command tells; nothing if it is missing. -/
def verdict? (as : List Asked) : Option Verdict :=
  if (c.expand r).isEmpty then some (.fault (.ofText s!"'{c.name}' has an empty command"))
  else as.head?.bind fun a => a.answer.map Verdict.ofAnswer

theorem carried_commandPlan (executor : Executor σ) (dir : Option String) (w : World σ) :
    let p : Plan σ (Log × Except Fault Unit) := c.commandPlan dir log r
    (p.trace executor w).map (fun a => a.request.argv) =
        (if (c.expand r).isEmpty then [] else [c.expand r]) ∧
      (p.act executor w).1.result?.map Verdict.ofResult =
        c.verdict? r (p.trace executor w) := by
  intro p
  cases hexpand : c.expand r with
  | nil =>
    rw [show p = _ from c.commandPlan_of_nil dir log r hexpand, verdict?, hexpand]
    exact ⟨rfl, rfl⟩
  | cons program args =>
    rw [show p = _ from c.commandPlan_of_cons dir log r hexpand, verdict?, hexpand]
    rcases Plan.ask_cases executor .command [] ⟨program, args, w.env, dir, none⟩ (fun answer =>
      .ended ((log.withExtra "command"
        (Request.display ⟨program, args, Dict.empty, none, none⟩)).record answer)) w with
      ⟨answer, w₁, hact, htrace⟩ | ⟨hend, htrace⟩
    · rw [Plan.trace, Plan.act]
      dsimp only [id_eq]
      rw [hact, htrace]
      exact ⟨rfl, congrArg some (Verdict.ofResult_record _ answer)⟩
    · rw [Plan.trace, Plan.act]
      dsimp only [id_eq]
      rw [htrace, Ending.result?_eq_none hend]
      exact ⟨rfl, rfl⟩

/-- The modules of a command line. -/
def modules (r : Resolved) : List String := Modules.named (r.list modulesOption)

theorem carried_unloadPlan (executor : Executor σ) (command : Option (List String))
    (x : Log × Except Fault Unit) (w : World σ) :
    let p : Plan σ (Log × Except Fault Unit) := unloadPlan r command x
    UpToFailure (Modules.requests command .unload (modules r)) (p.trace executor w) ∧
      (p.act executor w).1.result?.map Verdict.ofResult =
        (Modules.verdict? command .unload (modules r) (p.trace executor w)).map
          (Verdict.ofResult x).settle := by
  intro p
  obtain ⟨hupTo, hverdict⟩ :=
    Modules.carried_plan executor command .unload (r.list modulesOption) w
  rcases Plan.bind_cases executor (Modules.plan command .unload (r.list modulesOption))
    (fun unloaded => .now (applying (changesOf unloaded)) fun _ => .ended (settled x unloaded)) w
    with ⟨unloading, w₁, hunload, hact, htrace⟩ | ⟨hend, hact, htrace⟩
  · change p.act executor w = (.done (settled x unloading), applying (changesOf unloading) w₁)
      at hact
    change p.trace executor w = _ ++ [] at htrace
    rw [List.append_nil] at htrace
    rw [hunload] at hverdict
    rw [hact, htrace]
    refine ⟨hupTo, ?_⟩
    rw [modules, ← hverdict]
    exact congrArg some (Verdict.ofResult_settled x unloading)
  · change (p.act executor w).1.isDone = false at hact
    change p.trace executor w = _ at htrace
    rw [Ending.result?_eq_none hend] at hverdict
    rw [Ending.result?_eq_none hact, htrace, modules, ← hverdict]
    exact ⟨hupTo, rfl⟩

/-- **The command and the unloading of its modules**, whatever came of the command. -/
theorem carried_loadedPlan (executor : Executor σ) (dir : Option String)
    (command : Option (List String)) (w : World σ) :
    let p : Plan σ (Log × Except Fault Unit) := c.loadedPlan dir log r command
    ∃ commands unloads, p.trace executor w = commands ++ unloads ∧
      commands.map (fun a => a.request.argv) =
        (if (c.expand r).isEmpty then [] else [c.expand r]) ∧
      (if (c.verdict? r commands).isSome
        then UpToFailure (Modules.requests command .unload (modules r)) unloads
        else unloads = []) ∧
      (p.act executor w).1.result?.map Verdict.ofResult =
        (c.verdict? r commands).bind fun v =>
          (Modules.verdict? command .unload (modules r) unloads).map v.settle := by
  intro p
  obtain ⟨hcommand, hverdict⟩ := c.carried_commandPlan log r executor dir w
  rcases Plan.bind_cases executor (c.commandPlan dir log r) (unloadPlan r command) w with
    ⟨x, w₁, hx, hact, htrace⟩ | ⟨hend, hact, htrace⟩
  · obtain ⟨hupTo, hunload⟩ := carried_unloadPlan r executor command x w₁
    rw [hx] at hverdict
    refine ⟨_, _, htrace, hcommand, ?_, ?_⟩
    · rw [← hverdict]
      exact hupTo
    · rw [show p.act executor w = _ from hact, ← hverdict]
      exact hunload
  · rw [Ending.result?_eq_none hend] at hverdict
    refine ⟨_, [], htrace.trans (List.append_nil _).symm, hcommand, ?_, ?_⟩
    · rw [← hverdict]
      rfl
    · rw [show (p.act executor w).1.result? = none from Ending.result?_eq_none hact, ← hverdict]
      rfl

theorem ends_applyChanges (cs : List EnvChange) : (applyChanges cs : Act σ Unit).Ends :=
  Act.ends_modify fun _ => rfl

theorem ends_runCommand : (c.runCommand s log r).Ends := by
  unfold runCommand
  split
  · exact Act.ends_pure _
  · refine Act.Ends.bind (fun w hw => ⟨w, w, rfl, hw⟩) fun w => ?_
    refine (Act.ends_perform _ _).bind fun result => ?_
    split
    · exact Act.ends_pure _
    · exact Act.ends_pure _

theorem ends_execute : (c.execute s log r).Ends := by
  unfold execute
  dsimp only
  split_ifs
  · exact c.ends_runCommand s log r
  · refine (Modules.ends_run _ _ _ _).bind fun loading => ?_
    split
    · exact Act.ends_pure _
    · refine (ends_applyChanges _).bind fun _ => ?_
      split_ifs
      · exact Act.ends_pure _
      · refine (c.ends_runCommand s log r).bind fun x => (Modules.ends_run _ _ _ _).bind fun u => ?_
        split
        · refine (ends_applyChanges _).bind fun _ => ?_
          split_ifs
          · exact Act.ends_pure _
          · exact Act.ends_pure _
        · split
          · exact Act.ends_pure _
          · exact Act.ends_pure _

/-- What a command line with modules asks for: each module is loaded, up to the first that fails;
the command is run if all of them are loaded; then each is unloaded, whatever came of the command,
up to the first that fails. -/
structure Phases (words : Option (List String)) (loads commands unloads : List Asked) : Prop where
  load : UpToFailure (Modules.requests words .load (modules r)) loads
  command : commands.map (fun a => a.request.argv) =
    if Modules.verdict? words .load (modules r) loads = some .passed ∧ c.expand r ≠ []
      then [c.expand r] else []
  unload : if Modules.verdict? words .load (modules r) loads = some .passed ∧
      (c.verdict? r commands).isSome
    then UpToFailure (Modules.requests words .unload (modules r)) unloads
    else unloads = []

/-- The phases where not all modules are loaded. -/
theorem Phases.of_unloaded {words : Option (List String)} {loads : List Asked}
    (h : UpToFailure (Modules.requests words .load (modules r)) loads)
    (hload : Modules.verdict? words .load (modules r) loads ≠ some .passed) :
    c.Phases r words loads [] [] where
  load := h
  command := (if_neg fun hif => hload hif.1).symm
  unload := by rw [if_neg fun hif => hload hif.1]

/-- **The phases after the loading**, whatever came of it. -/
theorem carried_afterLoadingPlan (executor : Executor σ) (dir : Option String)
    (words : Option (List String)) (loading : Except Fault Modules.Outcome) (w : World σ) :
    let p : Plan σ (Log × Except Fault Unit) := c.afterLoadingPlan dir log r words loading
    let load := some (Verdict.ofOutcome loading)
    ∃ commands unloads, p.trace executor w = commands ++ unloads ∧
      (∀ loads, UpToFailure (Modules.requests words .load (modules r)) loads →
        Modules.verdict? words .load (modules r) loads = load →
        c.Phases r words loads commands unloads) ∧
      (p.act executor w).1.result?.map Verdict.ofResult =
        Verdict.whole load (c.verdict? r commands)
          (Modules.verdict? words .unload (modules r) unloads) := by
  intro p load
  cases loading with
  | error fault =>
    have hfault : load = some (.fault fault) := rfl
    have hne : load ≠ some .passed := hfault ▸ nofun
    exact ⟨[], [], rfl, fun _ hupTo hload => .of_unloaded c r hupTo (hload ▸ hne), rfl⟩
  | ok loaded =>
    let w₁ : World σ := applying loaded.changes w
    let next : Plan σ (Log × Except Fault Unit) :=
      if loaded.succeeded then c.loadedPlan dir log r words
      else .ended (log.fail loaded.status loaded.stderr, .ok ())
    have hact : p.act executor w = next.act executor w₁ := rfl
    have htrace : p.trace executor w = next.trace executor w₁ := rfl
    have hload : load = some (if loaded.succeeded then .passed
      else .failed loaded.status loaded.stderr) := rfl
    cases hsucceeded : loaded.succeeded with
    | false =>
      have hnext : next = .ended (log.fail loaded.status loaded.stderr, .ok ()) :=
        if_neg (Bool.eq_false_iff.mp hsucceeded)
      rw [hsucceeded, if_neg Bool.false_ne_true] at hload
      have hne : load ≠ some .passed := hload ▸ nofun
      have hfail : (log.fail loaded.status loaded.stderr).succeeded = false := hsucceeded
      refine ⟨[], [], htrace.trans (by rw [hnext]; rfl),
        fun _ hupTo htold => .of_unloaded c r hupTo (htold ▸ hne), ?_⟩
      rw [hact, hnext, hload]
      change some (if (log.fail loaded.status loaded.stderr).succeeded then Verdict.passed
        else _) = _
      rw [hfail]
      rfl
    | true =>
      have hnext : next = c.loadedPlan dir log r words := if_pos hsucceeded
      rw [hsucceeded, if_pos rfl] at hload
      obtain ⟨commands, unloads, hasked, hcommand, hunload, htold⟩ :=
        c.carried_loadedPlan log r executor dir words w₁
      refine ⟨commands, unloads, ?_, fun loads hupTo hloads => ⟨hupTo, ?_, ?_⟩, ?_⟩
      · rw [htrace, hnext, hasked]
      · rw [hloads, hload, hcommand]
        cases c.expand r <;> simp
      · simpa [hloads, hload] using hunload
      · rw [hact, hnext, htold, hload]
        rfl

/-- **The phases of a command line with modules**, and what comes of the whole. -/
theorem carried_plan (hmodules : r.list modulesOption ≠ []) (executor : Executor σ)
    (dir : Option String) (words : Option (List String)) (w : World σ) :
    let p : Plan σ (Log × Except Fault Unit) := c.plan dir log r words
    ∃ loads commands unloads, p.trace executor w = loads ++ commands ++ unloads ∧
      c.Phases r words loads commands unloads ∧
      (p.act executor w).1.result?.map Verdict.ofResult =
        Verdict.whole (Modules.verdict? words .load (modules r) loads) (c.verdict? r commands)
          (Modules.verdict? words .unload (modules r) unloads) := by
  intro p
  have hp : p = _ := c.plan_of_modules dir log r hmodules words
  obtain ⟨hupTo, hload⟩ : UpToFailure (Modules.requests words .load (modules r)) _ ∧
      _ = Modules.verdict? words .load (modules r) _ :=
    Modules.carried_plan executor words .load (r.list modulesOption) w
  rcases Plan.bind_cases executor (Modules.plan words .load (r.list modulesOption))
    (c.afterLoadingPlan dir log r words) w with
    ⟨loading, w₁, hx, hact, htrace⟩ | ⟨hend, hact, htrace⟩
  · obtain ⟨commands, unloads, hasked, hphases, htold⟩ :=
      c.carried_afterLoadingPlan log r executor dir words loading w₁
    rw [hx] at hload
    rw [← hp] at hact htrace
    refine ⟨_, commands, unloads, ?_, hphases _ hupTo hload.symm, ?_⟩
    · rw [htrace, hasked, List.append_assoc]
    · rw [hact, htold, ← hload]
      rfl
  · rw [Ending.result?_eq_none hend] at hload
    rw [← hp] at hact htrace
    refine ⟨_, [], [], htrace.trans (by rw [List.append_nil, List.append_nil]),
      .of_unloaded c r hupTo (hload ▸ nofun), ?_⟩
    rw [Ending.result?_eq_none hact, ← hload]
    rfl

/-- What a command line with modules does in a world, by what is asked for in its phases. -/
structure Account (w : World σ) (loads commands unloads : List Asked) : Prop where
  asked : (c.plan s.scratchDir log r s.moduleCommand).trace s.executor w =
    loads ++ commands ++ unloads
  phases : c.Phases r s.moduleCommand loads commands unloads
  ends : w.deadline = none → (c.execute s log r w).1.isDone = true
  /-- A failed status of the command is lost to a fault of the unloading. -/
  lost : ∀ x, (c.execute s log r w).1 = .done x → ∀ status stderr f,
    Modules.verdict? s.moduleCommand .load (modules r) loads = some .passed →
    c.verdict? r commands = some (.failed status stderr) →
    Modules.verdict? s.moduleCommand .unload (modules r) unloads = some (.fault f) →
      Verdict.ofResult x = .fault f
  /-- But for that, what went wrong first is told. -/
  first : ∀ x, (c.execute s log r w).1 = .done x →
    (∀ status stderr f, ¬ (c.verdict? r commands = some (.failed status stderr) ∧
      Modules.verdict? s.moduleCommand .unload (modules r) unloads = some (.fault f))) →
        Verdict.ofResult x = Verdict.first
          [Modules.verdict? s.moduleCommand .load (modules r) loads, c.verdict? r commands,
            Modules.verdict? s.moduleCommand .unload (modules r) unloads]

theorem account_execute (hmodules : r.list modulesOption ≠ []) (w : World σ) :
    ∃ loads commands unloads, c.Account s log r w loads commands unloads := by
  obtain ⟨loads, commands, unloads, htrace, hphases, htold⟩ :=
    c.carried_plan log r hmodules s.executor s.scratchDir s.moduleCommand w
  have hwhole : ∀ x, (c.execute s log r w).1 = .done x → Verdict.whole
      (Modules.verdict? s.moduleCommand .load (modules r) loads) (c.verdict? r commands)
      (Modules.verdict? s.moduleCommand .unload (modules r) unloads) =
        some (Verdict.ofResult x) := by
    intro x hx
    rw [← c.execute_eq log r s, hx] at htold
    exact htold.symm
  refine ⟨loads, commands, unloads, htrace, hphases, fun hw => ?_,
    fun x hx => (Verdict.of_whole (hwhole x hx)).1, fun x hx => (Verdict.of_whole (hwhole x hx)).2⟩
  obtain ⟨x, w', hx, -⟩ := c.ends_execute s log r w hw
  rw [hx]
  rfl

/-- An executor notes exactly what is asked for, where no task asks for anything. -/
theorem noted_execute {x : Executor σ} {s : Services (σ × List Request)}
    (hs : s.executor = x.noting) {w : World (σ × List Request)} (hw : w.Silent) :
    (c.execute s log r w).2.host.2 = w.host.2 ++
      ((c.plan s.scratchDir log r s.moduleCommand).trace s.executor w).map Asked.request := by
  have hasks : (c.plan s.scratchDir log r s.moduleCommand :
      Plan (σ × List Request) _).Asks fun a => a.purpose ≠ .trigger :=
    c.asks_plan (fun _ _ _ _ => nofun) (fun _ _ _ _ _ => nofun) s.moduleCommand log r
  rw [c.execute_eq, hs]
  exact ((World.Silent.along x).act (hasks w) (hasks w).of_mem hw).2

/-- **A command line with modules** asks for what its phases are, and comes to its end if there is
no limit. Then it tells what went wrong first; but a failed status of the command is lost to a fault
of the unloading. An executor that notes what it is asked for notes the requests of these phases, in
their order, and nothing else. -/
theorem verdict_execute (hmodules : r.list modulesOption ≠ []) :
    (∀ (s : Services σ) (w : World σ),
      ∃ loads commands unloads, c.Account s log r w loads commands unloads) ∧
    ∀ (x : Executor σ) (s : Services (σ × List Request)) (w : World (σ × List Request)),
      s.executor = x.noting → w.Silent →
      ∃ loads commands unloads, c.Account s log r w loads commands unloads ∧
        (c.execute s log r w).2.host.2 =
          w.host.2 ++ (loads ++ commands ++ unloads).map Asked.request := by
  refine ⟨fun s w => c.account_execute s log r hmodules w, fun x s w hs hw => ?_⟩
  obtain ⟨loads, commands, unloads, haccount⟩ := c.account_execute s log r hmodules w
  refine ⟨loads, commands, unloads, haccount, ?_⟩
  rw [c.noted_execute log r hs hw, haccount.asked]

/-! ## A status that is lost -/

/-- The options of a section that names a module. -/
def gccOptions : Resolved := resolve makeCommand.options (Dict.ofList [("modules", "gcc")])

def beginning : World Unit := World.start () ⟨0, 0⟩ false

/-- The services of a section whose executor notes what it is asked for. -/
def notingServices : Services (Unit × List Request) :=
  ⟨fun _ _ _ => Act.panicWith none, moduleExecutor.noting, some ["modulecmd"], none⟩

/-- The command fails, and its module is unloaded. -/
theorem verdict_execute_failing :
    let c := makeCommand
    let log := Log.new "Build" "Build"
    let w : World (Unit × List Request) := World.start ((), []) ⟨0, 0⟩ false
    gccOptions.list modulesOption ≠ [] ∧ notingServices.executor = moduleExecutor.noting ∧
    w.Silent ∧
    (c.execute notingServices log gccOptions w).2.host.2.map Request.argv =
      [["modulecmd", "load", "gcc"], ["make"], ["modulecmd", "unload", "gcc"]] ∧
    (c.execute notingServices log gccOptions w).1.result?.map Verdict.ofResult =
      some (.failed 2 "") ∧
    (∃ loads commands unloads,
      c.Account moduleContext.services log gccOptions beginning loads commands unloads) ∧
    ∃ loads commands unloads, c.Account notingServices log gccOptions w loads commands unloads ∧
      (c.execute notingServices log gccOptions w).2.host.2 =
        w.host.2 ++ (loads ++ commands ++ unloads).map Asked.request := by
  intro c log w
  have hmodules : gccOptions.list modulesOption ≠ [] := by decide +kernel
  have hsilent : w.Silent := List.forall_mem_nil _
  obtain ⟨hall, hnoting⟩ := c.verdict_execute (σ := Unit) log gccOptions hmodules
  exact ⟨hmodules, rfl, hsilent, by decide +kernel, by decide +kernel,
    hall moduleContext.services beginning, hnoting moduleExecutor notingServices w rfl hsilent⟩

/-- An executor for which modules cannot be unloaded at all, and other commands fail. -/
def brokenExecutor : Executor Unit := fun request host =>
  (match request.args with
    | ["load", _] => ⟨0, .ok ⟨0, "", "", false⟩⟩
    | ["unload", _] => ⟨0, .error (.ofText "no such file")⟩
    | _ => ⟨0, .ok ⟨2, "", "make failed", false⟩⟩, host)

def brokenContext : Context Unit := { moduleContext with executor := brokenExecutor }

/-- **The status of a failed command may be lost**: the module of a command that ended with status 2
cannot be unloaded, and the log tells of nothing else. -/
theorem status_lost :
    let asked := (makeCommand.plan none (Log.new "Build" "Build") gccOptions
      (some ["modulecmd"])).trace brokenExecutor beginning
    let log := (dispatch (Registry.new Dict.empty) brokenContext Limits.unlimited makeStage "Build"
      (Dict.ofList [("modules", "gcc")]) beginning).1
    asked.map (fun a => (a.request.argv, a.answer.map Verdict.ofAnswer)) =
      [(["modulecmd", "load", "gcc"], some .passed),
        (["make"], some (.failed 2 "make failed")),
        (["modulecmd", "unload", "gcc"], some (.fault (.ofText "no such file")))] ∧
    log.status = faultStatus ∧ log.status ≠ 2 ∧ log.stderr ≠ "make failed" := by
  intro asked log
  exact ⟨by decide +kernel, by decide +kernel, by decide +kernel, by decide +kernel⟩

end CommandLine

end Qualification
