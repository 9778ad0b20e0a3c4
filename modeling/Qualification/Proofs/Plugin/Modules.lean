import Qualification.Proofs.Activity
import Qualification.Proofs.Run.Invocation
/-!
# The environment after a command with modules

A command line loads its modules, runs its command and unloads the modules again. Where unloading a
module undoes loading it, nothing of this is left in the environment, unless the invocation ends
between the two.

* `Act.Turns`: an activity turns one environment into another if it comes to its end;
* `Environment.apply_unsets`, `Environment.apply_sets_ne`: changes that are undone, and those that
  show;
* `Modules.Reversible`, `Modules.yields_load`, `Modules.yields_unload`: modules whose changes are
  undone;
* `Modules.leftBehind`: the changes of modules that stay;
* `CommandLine.env_execute`: the environment after a command line;
* **`env_dispatch`**: the environment after an invocation is the one before it, unless a module
  fails to load after others, or the time is over after the loading.
-/

namespace Qualification

variable {σ α β : Type}

/-! ## Activities and the environment -/

namespace Act

/-- Whether an activity turns an environment into another one, and leaves the first one if it does
not come to its end. -/
def Turns (x : Act σ α) (before after : Environment) : Prop :=
  ∀ w : World σ, w.env = before → (x w).2.env = if (x w).1.isDone then after else before

theorem Turns.bind {x : Act σ α} {g : α → Act σ β} {P : α → Prop} {before after : Environment}
    (hx : x.Keeps World.env) (hP : x.Yields P) (hg : ∀ a, P a → (g a).Turns before after) :
    (x >>= g).Turns before after := by
  intro w hw
  have hkept := hx w
  rcases bind_cases x g w with ⟨a, w₁, ha, hbind⟩ | ⟨-, hdone, hworld⟩
  · rw [ha] at hkept
    rw [hbind]
    exact hg a (hP w a w₁ ha) w₁ (hkept.trans hw)
  · rw [hdone, hworld, hkept, hw]
    rfl

theorem yields_perform (executor : Executor σ) (request : Request) :
    (perform executor request).Yields fun r => ∃ host, (executor request host).1.result = r := by
  have hresponse : (ofState fun w : World σ =>
      ((executor request w.host).1, { w with host := (executor request w.host).2 })).Yields
        fun response => ∃ host, (executor request host).1 = response := by
    intro w response w' h
    cases h
    exact ⟨w.host, rfl⟩
  refine hresponse.bind fun response hr => yields_bind fun _ => yields_pure ?_
  obtain ⟨host, hhost⟩ := hr
  exact ⟨host, congrArg Response.result hhost⟩

end Act

/-! ## Changes of the environment -/

/-- The variable that a change is about. -/
def EnvChange.name : EnvChange → String
  | set name _ => name
  | unset name => name

namespace Environment

/-- A variable is after changes as those about it leave it. -/
theorem get?_apply {P : Option String → Prop} {name : String} {cs : List EnvChange}
    (hcs : ∀ c ∈ cs, c.name = name → ∀ env : Environment, P ((env.change c).get? name))
    {env : Environment} (h : P (env.get? name) ∨ ∃ c ∈ cs, c.name = name) :
    P ((env.apply cs).get? name) := by
  induction cs generalizing env with
  | nil => exact h.resolve_right fun ⟨_, hc, _⟩ => List.not_mem_nil hc
  | cons c cs ih =>
    have hrest := fun d hd => hcs d (List.mem_cons_of_mem c hd)
    change P (((env.change c).apply cs).get? name)
    by_cases hname : c.name = name
    · exact ih hrest (.inl (hcs c List.mem_cons_self hname env))
    · have hget : (env.change c).get? name = env.get? name := by
        cases c with
        | set key value => exact (Dict.get?_insert _ _ _ _).trans (if_neg (Ne.symm hname))
        | unset key => exact (Dict.get?_erase _ _ _).trans (if_neg (Ne.symm hname))
      refine ih hrest ?_
      rw [hget]
      rcases h with h | ⟨d, hd, hdname⟩
      · exact .inl h
      · rcases List.mem_cons.mp hd with rfl | hd
        · exact absurd hdname hname
        · exact .inr ⟨d, hd, hdname⟩

section Reversed

variable {env : Environment} {fresh : String → Prop} {sets : List EnvChange}
  (hfresh : ∀ name, fresh name → env.get? name = none)
  (hsets : ∀ c ∈ sets, ∃ name value, fresh name ∧ c = .set name value)

include hfresh hsets

theorem apply_sets_ne (hne : sets ≠ []) : env.apply sets ≠ env := by
  intro heq
  obtain ⟨c, hc⟩ := List.exists_mem_of_ne_nil sets hne
  obtain ⟨name, value, hname, rfl⟩ := hsets c hc
  have hset : ((env.apply sets).get? name).isSome = true := by
    refine get?_apply (P := fun o => o.isSome = true) (fun d hd hdname env' => ?_)
      (.inr ⟨_, hc, rfl⟩)
    obtain ⟨key, text, -, rfl⟩ := hsets d hd
    have hkey : name = key := hdname.symm
    rw [change, Dict.get?_insert, if_pos hkey]
    rfl
  rw [heq, hfresh name hname] at hset
  cases hset

/-- **Unsetting fresh variables undoes setting some of them.** -/
theorem apply_unsets {unsets : List EnvChange}
    (hunsets : ∀ c, c ∈ unsets ↔ ∃ name, fresh name ∧ c = .unset name) :
    (env.apply sets).apply unsets = env := by
  refine Dict.ext_get? fun name => ?_
  -- A fresh variable is unset at last, whatever was set; no change is about another one.
  by_cases hname : fresh name
  · rw [hfresh name hname]
    refine get?_apply (P := fun o => o = none) (fun c hc hcname env' => ?_)
      (.inr ⟨.unset name, (hunsets _).mpr ⟨name, hname, rfl⟩, rfl⟩)
    obtain ⟨key, -, rfl⟩ := (hunsets c).mp hc
    have hkey : name = key := hcname.symm
    rw [change, Dict.get?_erase, if_pos hkey]
  · have hsame : (env.apply sets).get? name = env.get? name := by
      refine get?_apply (P := fun o => o = env.get? name) (fun c hc hcname => ?_) (.inl rfl)
      obtain ⟨key, value, hkey, rfl⟩ := hsets c hc
      exact absurd (hcname ▸ hkey) hname
    refine get?_apply (P := fun o => o = env.get? name) (fun c hc hcname => ?_) (.inl hsame)
    obtain ⟨key, hkey, rfl⟩ := (hunsets c).mp hc
    exact absurd (hcname ▸ hkey) hname

end Reversed

end Environment

/-! ## Modules -/

namespace Modules

/-- Whether unloading each of some modules succeeds and undoes loading it: loading sets only
variables that the environment does not have, and unloading unsets those. -/
structure Reversible (executor : Executor σ) (command : List String) (names : String → List String)
    (env : Environment) (modules : List String) : Prop where
  load : ∀ m ∈ modules, ∀ host out, (executor (request command .load m) host).1.result = .ok out →
    out.succeeded = true → ∀ c ∈ EnvScript.changes out.stdout,
      ∃ name ∈ names m, ∃ value, c = .set name value
  unload : ∀ m ∈ modules, ∀ host, ∃ out,
    (executor (request command .unload m) host).1.result = .ok out ∧ out.succeeded = true ∧
      ∀ c, c ∈ EnvScript.changes out.stdout ↔ ∃ name ∈ names m, c = .unset name
  fresh : ∀ m ∈ modules, ∀ name ∈ names m, env.get? name = none

theorem keeps_runFrom (executor : Executor σ) (command : List String) (action : Action)
    (modules : List String) (o : Outcome) :
    (runFrom executor command action o modules).Keeps World.env := by
  induction modules generalizing o with
  | nil => exact Act.keeps_pure _
  | cons m ms ih =>
    refine (Act.keeps_perform executor _).bind fun r => ?_
    cases r with
    | error fault => exact Act.keeps_pure _
    | ok out =>
      dsimp only
      split_ifs
      · exact ih _
      · exact Act.keeps_pure _

theorem keeps_run (executor : Executor σ) (command : Option (List String)) (action : Action)
    (modules : List String) : (run executor command action modules).Keeps World.env := by
  cases command with
  | none => exact Act.keeps_pure _
  | some command => exact keeps_runFrom executor command action _ _

section Reversible

variable {executor : Executor σ} {command : List String} {names : String → List String}
  {env : Environment} {modules : List String} (h : Reversible executor command names env modules)

include h

/-- Loading modules sets variables of theirs. -/
theorem yields_load {ms : List String} (hms : ms ⊆ modules) (o : Outcome) :
    (runFrom executor command .load o ms).Yields fun r => ∀ o', r = .ok o' →
      ∃ more, o'.changes = o.changes ++ more ∧
        ∀ c ∈ more, ∃ name value, (∃ m ∈ modules, name ∈ names m) ∧ c = .set name value := by
  induction ms generalizing o with
  | nil =>
    refine Act.yields_pure fun o' ho' => ?_
    cases ho'
    exact ⟨[], (List.append_nil _).symm, List.forall_mem_nil _⟩
  | cons m ms ih =>
    refine (Act.yields_perform executor _).bind fun r hr => ?_
    obtain ⟨host, hhost⟩ := hr
    cases r with
    | error fault => exact Act.yields_pure nofun
    | ok out =>
      dsimp only
      split_ifs with hsucceeded
      · intro w r w' hrun o' ho'
        obtain ⟨more, hchanges, hmore⟩ := ih (fun m' hm' => hms (List.mem_cons_of_mem m hm'))
          (o.add out) w r w' hrun o' ho'
        refine ⟨EnvScript.changes out.stdout ++ more, ?_, fun c hc => ?_⟩
        · rw [hchanges, Outcome.add, List.append_assoc]
        · rcases List.mem_append.mp hc with hc | hc
          · obtain ⟨name, hname, value, rfl⟩ :=
              h.load m (hms List.mem_cons_self) host out hhost hsucceeded c hc
            exact ⟨name, value, ⟨m, hms List.mem_cons_self, hname⟩, rfl⟩
          · exact hmore c hc
      · refine Act.yields_pure fun o' ho' => ?_
        cases ho'
        exact ⟨[], (List.append_nil _).symm, List.forall_mem_nil _⟩

/-- Unloading modules succeeds and unsets all variables of theirs. -/
theorem yields_unload {ms : List String} (hms : ms ⊆ modules) (o : Outcome) :
    (runFrom executor command .unload o ms).Yields fun r => ∃ o' more, r = .ok o' ∧
      o'.changes = o.changes ++ more ∧
        ∀ c, c ∈ more ↔ ∃ name, (∃ m ∈ ms, name ∈ names m) ∧ c = .unset name := by
  induction ms generalizing o with
  | nil => exact Act.yields_pure ⟨o, [], rfl, (List.append_nil _).symm, by simp⟩
  | cons m ms ih =>
    refine (Act.yields_perform executor _).bind fun r hr => ?_
    obtain ⟨host, hhost⟩ := hr
    obtain ⟨out, hout, hsucceeded, hunsets⟩ := h.unload m (hms List.mem_cons_self) host
    rw [hout] at hhost
    cases hhost
    dsimp only
    rw [if_pos hsucceeded]
    intro w r w' hrun
    obtain ⟨o', more, hr, hchanges, hmore⟩ := ih (fun m' hm' => hms (List.mem_cons_of_mem m hm'))
      (o.add out) w r w' hrun
    refine ⟨o', EnvScript.changes out.stdout ++ more, hr, ?_, fun c => ?_⟩
    · rw [hchanges, Outcome.add, List.append_assoc]
    · rw [List.mem_append, hunsets, hmore]
      constructor
      · rintro (⟨name, hname, rfl⟩ | ⟨name, ⟨m', hm', hname⟩, rfl⟩)
        · exact ⟨name, ⟨m, List.mem_cons_self, hname⟩, rfl⟩
        · exact ⟨name, ⟨m', List.mem_cons_of_mem m hm', hname⟩, rfl⟩
      · rintro ⟨name, ⟨m', hm', hname⟩, rfl⟩
        rcases List.mem_cons.mp hm' with rfl | hm'
        · exact .inl ⟨name, hname, rfl⟩
        · exact .inr ⟨name, ⟨m', hm', hname⟩, rfl⟩

end Reversible

theorem sets_of_load {executor : Executor σ} {command : Option (List String)}
    {names : String → List String} {env : Environment} {modules : List String}
    (h : ∀ words, command = some words → Reversible executor words names env (named modules))
    {w w' : World σ} {loaded : Outcome}
    (hrun : run executor command .load modules w = (.done (.ok loaded), w')) :
    ∀ c ∈ loaded.changes, ∃ name value, (∃ m ∈ named modules, name ∈ names m) ∧
      c = .set name value := by
  cases command with
  | none =>
    cases hrun
    exact List.forall_mem_nil _
  | some words =>
    obtain ⟨more, hchanges, hmore⟩ :=
      yields_load (h words rfl) (List.Subset.refl _) .nothing w _ w' hrun loaded rfl
    rw [hchanges]
    exact hmore

/-- The changes of modules that an invocation leaves behind, after its loading has ended: those that
were loaded before one that failed, and all of them if the invocation does not come to its end. -/
def leftBehind (loading : Ending (Except Fault Outcome)) (isDone : Bool) : List EnvChange :=
  match loading with
  | .done (.ok loaded) => if loaded.succeeded && isDone then [] else loaded.changes
  | _ => []

theorem leftBehind_ne_nil_iff {loading : Ending (Except Fault Outcome)} {isDone : Bool} :
    leftBehind loading isDone ≠ [] ↔ ∃ loaded, loading = .done (.ok loaded) ∧ loaded.changes ≠ [] ∧
      (loaded.succeeded = false ∨ isDone = false) := by
  cases loading with
  | done r =>
    cases r with
    | error fault => simp [leftBehind]
    | ok loaded =>
      cases hsucceeded : loaded.succeeded <;> cases isDone <;> simp [leftBehind, hsucceeded]
  | panicked payload => simp [leftBehind]
  | cut => simp [leftBehind]

end Modules

/-! ## Command lines -/

namespace CommandLine

variable {s : Services σ} {w : World σ} {names : String → List String}

theorem keeps_runCommand (c : CommandLine) (s : Services σ) (log : Log) (r : Resolved) :
    (c.runCommand s log r).Keeps World.env := by
  unfold runCommand
  split
  · exact Act.keeps_pure _
  · refine Act.Keeps.bind (fun _ => rfl) fun w => ?_
    refine (Act.keeps_perform _ _).bind fun result => ?_
    split
    · exact Act.keeps_pure _
    · exact Act.keeps_pure _

/-- The part of a command line after the modules are loaded. -/
def afterLoading (c : CommandLine) (s : Services σ) (log : Log) (r : Resolved) :
    Act σ (Log × Except Fault Unit) := do
  let (log, result) ← c.runCommand s log r
  match ← Modules.run s.executor s.moduleCommand .unload (r.list modulesOption) with
  | .ok unloaded =>
    applyChanges unloaded.changes
    if !unloaded.succeeded && log.succeeded then
      return (log.fail unloaded.status unloaded.stderr, result)
    else return (log, result)
  | .error fault =>
    match result with
    | .error first => return (log, .error first)
    | .ok () => return (log, .error fault)

theorem turns_applyChanges {before after : Environment} {cs : List EnvChange}
    (h : before.apply cs = after) {x : Act σ α}
    (hx : ∀ w, (x w).1.isDone = true ∧ (x w).2.env = w.env) :
    (applyChanges cs >>= fun _ => x).Turns before after := by
  intro w hw
  obtain ⟨hdone, henv⟩ := hx { w with env := w.env.apply cs }
  change (x { w with env := w.env.apply cs }).2.env =
    if (x { w with env := w.env.apply cs }).1.isDone then after else before
  rw [hdone, henv, if_pos rfl, ← h, ← hw]

/-- **After the loading** the environment is put right, unless the end is not come to. -/
theorem turns_afterLoading (c : CommandLine) {command : List String}
    (hcommand : s.moduleCommand = some command) {env : Environment} (log : Log) (r : Resolved)
    (h : Modules.Reversible s.executor command names env (Modules.named (r.list modulesOption)))
    {sets : List EnvChange}
    (hsets : ∀ change ∈ sets, ∃ name value,
      (∃ m ∈ Modules.named (r.list modulesOption), name ∈ names m) ∧ change = .set name value) :
    (c.afterLoading s log r).Turns (env.apply sets) env := by
  have hunload : (Modules.run s.executor s.moduleCommand .unload (r.list modulesOption)).Yields
      fun r => ∃ unloaded, r = .ok unloaded ∧ (env.apply sets).apply unloaded.changes = env := by
    rw [hcommand]
    intro w unloading w' hrun
    obtain ⟨unloaded, unsets, rfl, hchanges, hunsets⟩ :=
      Modules.yields_unload h (List.Subset.refl _) .nothing w _ w' hrun
    refine ⟨unloaded, rfl, ?_⟩
    rw [hchanges]
    refine Environment.apply_unsets (fun name hname => ?_) hsets hunsets
    obtain ⟨m, hm, hname⟩ := hname
    exact h.fresh m hm name hname
  refine Act.Turns.bind (c.keeps_runCommand s log r) (fun _ _ _ _ => trivial) fun x (_ : True) => ?_
  obtain ⟨log', result⟩ := x
  refine Act.Turns.bind (Modules.keeps_run _ _ _ _) hunload fun unloading hunloading => ?_
  obtain ⟨unloaded, rfl, hrestored⟩ := hunloading
  refine turns_applyChanges hrestored fun w => ?_
  split_ifs
  · exact ⟨rfl, rfl⟩
  · exact ⟨rfl, rfl⟩

/-- **The environment after a command line** has the changes of modules that are left behind. -/
theorem env_execute (c : CommandLine) (log : Log) (r : Resolved)
    (h : ∀ command, s.moduleCommand = some command →
      Modules.Reversible s.executor command names w.env (Modules.named (r.list modulesOption))) :
    (c.execute s log r w).2.env = w.env.apply (Modules.leftBehind
      (Modules.run s.executor s.moduleCommand .load (r.list modulesOption) w).1
      (c.execute s log r w).1.isDone) := by
  by_cases hempty : (r.list modulesOption).isEmpty = true
  · -- Without modules nothing is loaded.
    have hexecute : c.execute s log r = c.runCommand s log r := if_pos hempty
    have hnone : Modules.leftBehind
        (Modules.run s.executor s.moduleCommand .load (r.list modulesOption) w).1
        (c.execute s log r w).1.isDone = [] := by
      rw [List.isEmpty_iff.mp hempty]
      cases s.moduleCommand <;> cases (c.execute s log r w).1.isDone <;> rfl
    rw [hnone, hexecute, c.keeps_runCommand]
    rfl
  · have hexecute : c.execute s log r = Modules.run s.executor s.moduleCommand .load
        (r.list modulesOption) >>= _ := if_neg hempty
    rw [hexecute]
    have hkept := Modules.keeps_run s.executor s.moduleCommand .load (r.list modulesOption) w
    rcases Act.bind_cases (Modules.run s.executor s.moduleCommand .load (r.list modulesOption)) _ w
      with ⟨loading, w₁, hload, hbind⟩ | ⟨hloading, -, hworld⟩
    · rw [hload] at hkept
      rw [hbind, hload]
      cases loading with
      | error fault => exact hkept
      | ok loaded =>
        have hsets := Modules.sets_of_load h hload
        let w₂ : World σ := { w₁ with env := w₁.env.apply loaded.changes }
        have hw₂ : w₂.env = w.env.apply loaded.changes := congrArg (·.apply loaded.changes) hkept
        change ((if !loaded.succeeded then
            Pure.pure (log.fail loaded.status loaded.stderr, .ok ())
          else c.afterLoading s log r : Act σ (Log × Except Fault Unit)) w₂).2.env =
            w.env.apply (Modules.leftBehind (.done (.ok loaded))
              ((if !loaded.succeeded then
                Pure.pure (log.fail loaded.status loaded.stderr, .ok ())
              else c.afterLoading s log r : Act σ (Log × Except Fault Unit)) w₂).1.isDone)
        cases hsucceeded : loaded.succeeded with
        | false =>
          -- A module failed to load: the changes of those before it stay.
          rw [Modules.leftBehind, hsucceeded]
          exact hw₂
        | true =>
          cases hcommand : s.moduleCommand with
          | none =>
            rw [hcommand] at hload
            cases hload
            cases hsucceeded
          | some command =>
            have hturns := c.turns_afterLoading hcommand log r (h command hcommand) hsets w₂ hw₂
            change (c.afterLoading s log r w₂).2.env = w.env.apply (Modules.leftBehind
              (.done (.ok loaded)) (c.afterLoading s log r w₂).1.isDone)
            rw [hturns, Modules.leftBehind, hsucceeded]
            cases (c.afterLoading s log r w₂).1.isDone <;> rfl
    · -- The loading was cut off, before any of its changes was applied.
      rw [hworld, hkept]
      have hnone : ∀ b, Modules.leftBehind
          (Modules.run s.executor s.moduleCommand .load (r.list modulesOption) w).1 b = [] := by
        intro b
        unfold Modules.leftBehind
        split
        next hdone =>
          rw [hdone] at hloading
          cases hloading
        next => rfl
      rw [hnone]
      rfl

end CommandLine

/-! ## Invocations -/

/-- What is loaded of the modules of a section, under the time limit of its invocation. -/
def CommandLine.loading (cl : CommandLine) (c : Context σ) (limits : Limits) (title : String)
    (values : Dict String) (w : World σ) : Ending (Except Fault Modules.Outcome) :=
  let (resolved, notices) := Context.resolveFor title cl.options values
  (withLimit (limits.stageTimeout cl.timeout)
    (Modules.run c.executor c.moduleCommand .load (resolved.list CommandLine.modulesOption))
    (w.notice notices)).1

/-- Whether the invocation of a command line for a section of a stage comes to its end. -/
def CommandLine.comesToEnd (cl : CommandLine) (c : Context σ) (limits : Limits)
    (stage title : String) (values : Dict String) (w : World σ) : Bool :=
  let (resolved, notices) := Context.resolveFor title cl.options values
  let template := { Log.new stage title with
    extra := resolved.passthrough
    startedAt := some w.instant }
  (withLimit (limits.stageTimeout cl.timeout) (cl.execute c.services template resolved)
    (w.notice notices)).1.isDone

/-- The modules that a section names. -/
def CommandLine.modulesOf (cl : CommandLine) (values : Dict String) : List String :=
  Modules.named ((resolve cl.options values).list CommandLine.modulesOption)

/-- Under a time limit either nothing begins, or everything is as without the limit in a world that
knows of it. -/
theorem withLimit_cases (limit : Option Duration) (w : World σ) :
    (∀ {α : Type} (x : Act σ α),
      (withLimit limit x w).1 = .cut ∧ (withLimit limit x w).2.env = w.env) ∨
    ∃ w₁ : World σ, w₁.env = w.env ∧ ∀ {α : Type} (x : Act σ α),
      (withLimit limit x w).1 = (x w₁).1 ∧ (withLimit limit x w).2.env = (x w₁).2.env := by
  by_cases hzero : limit.map Duration.millisUp = some 0
  · left
    intro α x
    unfold withLimit
    dsimp only
    rw [if_pos hzero]
    exact ⟨rfl, rfl⟩
  · right
    refine ⟨{ w with
      deadline := (limit.map Duration.millisUp).map (w.now + ·), inStage := true }, rfl, ?_⟩
    intro α x
    unfold withLimit
    dsimp only
    rw [if_neg hzero]
    exact ⟨rfl, rfl⟩

/-- **The environment after an invocation** of a command line is the one before it, with the changes
of modules that are left behind. -/
theorem env_executeStage {c : Context σ} {limits : Limits} {stage title : String}
    {inst : Instance σ} {cl : CommandLine} (hplugin : inst.plugin = cl.plugin)
    {values : Dict String} {w : World σ} {names : String → List String}
    (h : ∀ command, c.moduleCommand = some command →
      Modules.Reversible c.executor command names w.env (cl.modulesOf values)) :
    (executeStage c limits stage title inst values w).2.env =
      w.env.apply (Modules.leftBehind (cl.loading c limits title values w)
        (cl.comesToEnd c limits stage title values w)) := by
  have hworld : (executeStage c limits stage title inst values w).2 =
      (withLimit (limits.stageTimeout inst.plugin.timeout) (inst.plugin.execute inst.id c.services
        { Log.new stage title with
          extra := (resolve inst.plugin.options values).passthrough
          startedAt := some w.instant }
        (resolve inst.plugin.options values))
        (w.notice (Context.resolveFor title inst.plugin.options values).2)).2 := rfl
  rw [hworld, hplugin]
  unfold CommandLine.loading CommandLine.comesToEnd
  dsimp only
  rcases withLimit_cases (limits.stageTimeout cl.timeout)
    (w.notice (Context.resolveFor title cl.options values).2) with hcut | ⟨w₁, henv, hlimit⟩
  · rw [(hcut _).1]
    exact (hcut _).2
  · have hw₁ : w₁.env = w.env := henv
    rw [(hlimit _).1, (hlimit _).1]
    refine ((hlimit _).2.trans ?_)
    rw [← hw₁] at h ⊢
    exact cl.env_execute _ _ h

theorem sets_of_leftBehind {c : Context σ} {limits : Limits} {title : String} {cl : CommandLine}
    {values : Dict String} {w : World σ} {names : String → List String}
    (h : ∀ command, c.moduleCommand = some command →
      Modules.Reversible c.executor command names w.env (cl.modulesOf values)) (ended : Bool) :
    ∀ change ∈ Modules.leftBehind (cl.loading c limits title values w) ended, ∃ name value,
      (∃ m ∈ cl.modulesOf values, name ∈ names m) ∧ change = .set name value := by
  intro change hchange
  cases hloading : cl.loading c limits title values w with
  | done loading =>
    rw [hloading] at hchange
    cases loading with
    | error fault => exact absurd hchange List.not_mem_nil
    | ok loaded =>
      rw [Modules.leftBehind] at hchange
      split_ifs at hchange
      · exact absurd hchange List.not_mem_nil
      · unfold CommandLine.loading at hloading
        dsimp only at hloading
        rcases withLimit_cases (limits.stageTimeout cl.timeout)
          (w.notice (Context.resolveFor title cl.options values).2) with hcut | ⟨w₁, -, hlimit⟩
        · rw [(hcut _).1] at hloading
          cases hloading
        · rw [(hlimit _).1] at hloading
          exact Modules.sets_of_load h (Prod.ext hloading rfl) change hchange
  | panicked payload =>
    rw [hloading] at hchange
    exact absurd hchange List.not_mem_nil
  | cut =>
    rw [hloading] at hchange
    exact absurd hchange List.not_mem_nil

/-- **Modules and the environment.** After a command line was invoked whose modules are undone by
unloading them, the environment is as before, unless modules that had been loaded are left behind:
where another one then fails to load, and where the time limit comes after the loading. Then their
changes are there. -/
theorem env_dispatch {r : Registry σ} {unit : Registered σ} {values : Dict String}
    {inst : Instance σ} {cl : CommandLine} (hinvoked : r.invoked? unit values = some inst)
    (hplugin : inst.plugin = cl.plugin) (c : Context σ) (limits : Limits) (title : String)
    (w : World σ) (names : String → List String)
    (h : ∀ command, c.moduleCommand = some command →
      Modules.Reversible c.executor command names w.env (cl.modulesOf values)) :
    let after := (dispatch r c limits unit title values w).2.env
    let loading := cl.loading c limits title values w
    let ended := cl.comesToEnd c limits unit.key title values w
    after = w.env.apply (Modules.leftBehind loading ended) ∧
    (after = w.env ↔ ¬ ∃ loaded, loading = .done (.ok loaded) ∧ loaded.changes ≠ [] ∧
      (loaded.succeeded = false ∨ ended = false)) := by
  intro after loading ended
  have hafter : after = w.env.apply (Modules.leftBehind loading ended) := by
    have henv := congrArg World.env (dispatch_of_invoked c limits title w hinvoked).2
    exact henv.trans (env_executeStage hplugin h)
  refine ⟨hafter, ?_⟩
  rw [← Modules.leftBehind_ne_nil_iff, not_not]
  constructor
  · intro hsame
    by_contra hne
    cases hcommand : c.moduleCommand with
    | none =>
      -- Without a command for modules any names will do, and so will none at all.
      have hnone : ∀ change ∈ Modules.leftBehind loading ended, ∃ name value,
          (∃ m ∈ cl.modulesOf values, name ∈ ([] : List String)) ∧ change = .set name value :=
        sets_of_leftBehind (fun command hsome => by rw [hcommand] at hsome; cases hsome) ended
      obtain ⟨change, hchange⟩ := List.exists_mem_of_ne_nil _ hne
      obtain ⟨name, -, ⟨m, -, hname⟩, -⟩ := hnone change hchange
      exact List.not_mem_nil hname
    | some command =>
      refine Environment.apply_sets_ne (fun name hname => ?_) (sets_of_leftBehind h ended) hne
        (hafter.symm.trans hsame)
      obtain ⟨m, hm, hname⟩ := hname
      exact (h command hcommand).fresh m hm name hname
  · intro hnil
    rw [hafter, hnil]
    rfl

/-! ## Modules left behind -/

/-- An executor for commands of modules: `gcc` sets a variable and unsets it again, and `mpi` cannot
be loaded. Everything else takes five seconds and fails. -/
def moduleExecutor : Executor Unit := fun request host =>
  (match request.args with
    | ["load", "gcc"] => ⟨0, .ok ⟨0, "export CC=gcc;", "", false⟩⟩
    | ["unload", "gcc"] => ⟨0, .ok ⟨0, "unset CC;", "", false⟩⟩
    | ["load", _] => ⟨0, .ok ⟨1, "", "unknown module", false⟩⟩
    | ["unload", _] => ⟨0, .ok ⟨0, "", "", false⟩⟩
    | _ => ⟨5000, .ok ⟨2, "", "", false⟩⟩, host)

/-- The variables of its modules. -/
def moduleNames (module : String) : List String := if module = "gcc" then ["CC"] else []

def moduleContext : Context Unit :=
  ⟨Uuid.ofNat 1, Sections.empty, moduleExecutor, some ["modulecmd"], none, Dict.empty, Dict.empty⟩

def makeCommand : CommandLine := ⟨"Build", "", 0, ["make"], Dict.empty, none⟩

def makeStage : Registered Unit := ⟨"Build", 0, .stage, makeCommand.plugin⟩

theorem reversible_moduleExecutor (modules : List String) :
    Modules.Reversible moduleExecutor ["modulecmd"] moduleNames Dict.empty modules where
  load m _ host out hout hsucceeded c hc := by
    by_cases hm : m = "gcc"
    · subst hm
      cases hout
      have hchanges : EnvScript.changes "export CC=gcc;" = [.set "CC" "gcc"] := by decide
      rw [hchanges, List.mem_singleton] at hc
      exact ⟨"CC", List.mem_singleton.mpr rfl, "gcc", hc⟩
    · have hfails : (moduleExecutor (Modules.request ["modulecmd"] .load m) host).1.result =
          .ok ⟨1, "", "unknown module", false⟩ := by
        simp [moduleExecutor, Modules.request, Request.ofWords?, Modules.Action.word]
      rw [hfails] at hout
      cases hout
      cases hsucceeded
  unload m _ host := by
    by_cases hm : m = "gcc"
    · subst hm
      have hchanges : EnvScript.changes "unset CC;" = [.unset "CC"] := by decide
      refine ⟨⟨0, "unset CC;", "", false⟩, rfl, rfl, fun c => ?_⟩
      rw [hchanges]
      simp [moduleNames]
    · refine ⟨⟨0, "", "", false⟩, ?_, rfl, fun c => ?_⟩
      · simp [moduleExecutor, Modules.request, Request.ofWords?, Modules.Action.word]
      · have hchanges : EnvScript.changes "" = [] := by decide
        rw [hchanges]
        simp [moduleNames, hm]
  fresh _ _ _ _ := rfl

/-- An invocation of the command for a section that names modules. -/
def invokeMake (limits : Limits) (modules : String) : Log × World Unit :=
  dispatch (Registry.new Dict.empty) moduleContext limits makeStage "Build"
    (Dict.ofList [("modules", modules)]) (World.start () ⟨0, 0⟩ false)

/-- The environment after the command has failed is the one before. -/
theorem env_dispatch_failing :
    (invokeMake Limits.unlimited "gcc").1.status = 2 ∧
      (invokeMake Limits.unlimited "gcc").2.env = Dict.empty := by
  have hstatus : (invokeMake Limits.unlimited "gcc").1.status = 2 := by decide +kernel
  have hended : makeCommand.comesToEnd moduleContext Limits.unlimited "Build" "Build"
      (Dict.ofList [("modules", "gcc")]) (World.start () ⟨0, 0⟩ false) = true := by decide +kernel
  have hloading : Modules.leftBehind (makeCommand.loading moduleContext Limits.unlimited "Build"
      (Dict.ofList [("modules", "gcc")]) (World.start () ⟨0, 0⟩ false)) true = [] := by
    decide +kernel
  have hinvoked : (Registry.new Dict.empty).invoked? makeStage (Dict.ofList [("modules", "gcc")]) =
      some makeStage.inst := rfl
  have henv : (invokeMake Limits.unlimited "gcc").2.env = Environment.apply Dict.empty
      (Modules.leftBehind (makeCommand.loading moduleContext Limits.unlimited "Build"
        (Dict.ofList [("modules", "gcc")]) (World.start () ⟨0, 0⟩ false))
        (makeCommand.comesToEnd moduleContext Limits.unlimited "Build" "Build"
          (Dict.ofList [("modules", "gcc")]) (World.start () ⟨0, 0⟩ false))) :=
    (env_dispatch hinvoked rfl moduleContext Limits.unlimited "Build" (World.start () ⟨0, 0⟩ false)
      moduleNames fun command hcommand => by
        cases hcommand
        exact reversible_moduleExecutor _).1
  rw [hended, hloading] at henv
  exact ⟨hstatus, henv⟩

/-- **Modules left behind.** A second module that cannot be loaded, or a time limit during the
command, leaves the variable of the first one in the environment. -/
theorem env_dispatch_leftBehind :
    (∀ modules, Modules.Reversible moduleExecutor ["modulecmd"] moduleNames Dict.empty modules) ∧
    (invokeMake Limits.unlimited "gcc, mpi").2.env = Dict.ofList [("CC", "gcc")] ∧
    (invokeMake ⟨some 1, none⟩ "gcc").2.env = Dict.ofList [("CC", "gcc")] ∧
    Dict.ofList [("CC", "gcc")] ≠ (Dict.empty : Environment) := by
  refine ⟨reversible_moduleExecutor, ?_, ?_, ?_⟩
  · decide +kernel
  · decide +kernel
  · decide

end Qualification
