import Qualification.Proofs.Run.Invocation
/-!
# What comes of an invocation

However a plugin ends, one log comes of its invocation, and the world goes on from where the plugin
left it. A plugin that comes to its end leaves the log that it wrote, an error only what it had put
out; a panic and the end of the time leave the log that the plugin was given.

* `blankLog`, `Instance.task`: what a plugin is given for a section;
* `Instance.limit`: the limit of an instance, which is its own or that of the run;
* `World.under`, `World.after`: the world in which it works under a limit, and the one that it
  leaves; `withLimit_of_begun`, `withLimit_of_none`;
* `Upshot`, **`upshot_executeStage`**: the log and the world, one case for each ending.
-/

namespace Qualification

variable {σ : Type}

/-- The log that a plugin is given: the keys that are passed through to it, and the time. -/
def blankLog (stage title : String) (options : Resolved) (start : Instant) : Log :=
  { Log.new stage title with extra := options.passthrough, startedAt := some start }

/-- What an instance does for a section, from a time on. -/
def Instance.task (inst : Instance σ) (c : Context σ) (stage title : String)
    (values : Dict String) (start : Instant) : Act σ (Log × Except Fault Unit) :=
  let options := resolve inst.plugin.options values
  inst.plugin.execute inst.id c.services (blankLog stage title options start) options

/-- The log with the time that an invocation took, from one world to another. -/
def Log.stamped (l : Log) (before after : World σ) : Log :=
  { l with
    finishedAt := some after.instant
    durationMs := some (after.wallMillis - before.wallMillis) }

/-! ## Limits -/

namespace Instance

/-- The limit of an instance: its own or that of the run. -/
def limit (inst : Instance σ) (limits : Limits) : Option Duration :=
  limits.stageTimeout inst.plugin.timeout

variable {inst : Instance σ}

theorem limit_of_own {own : Duration} (h : inst.plugin.timeout = some own) (limits : Limits) :
    inst.limit limits = some own := by
  rw [limit, Limits.stageTimeout, h, Option.some_or]

theorem limit_of_none (h : inst.plugin.timeout = none) (limits : Limits) :
    inst.limit limits = limits.stageSeconds.map Duration.ofSeconds := by
  rw [limit, Limits.stageTimeout, h, Option.none_or]

end Instance

/-- The world in which a task of its own works under a limit. -/
def World.under (w : World σ) (limit : Option Duration) : World σ :=
  { w with deadline := (limit.map Duration.millisUp).map (w.now + ·), inStage := true }

/-- The world after a task of its own. -/
def World.after (w : World σ) : World σ := { w with deadline := none, inStage := false }.settle

@[simp] theorem World.env_under (w : World σ) (limit : Option Duration) :
    (w.under limit).env = w.env := rfl

@[simp] theorem World.env_after (w : World σ) : w.after.env = w.env := rfl

section WithLimit

variable {α : Type} {limit : Option Duration} (x : Act σ α) (w : World σ)

/-- Without any time nothing begins. -/
theorem withLimit_of_none (h : limit.map Duration.millisUp = some 0) :
    withLimit limit x w = (.cut, w.settle) := by
  simp [withLimit, h]

theorem withLimit_of_begun (h : limit.map Duration.millisUp ≠ some 0) :
    withLimit limit x w = ((x (w.under limit)).1, (x (w.under limit)).2.after) := by
  simp [withLimit, h, World.under, World.after]

end WithLimit

/-! ## Endings -/

section Upshot

variable (c : Context σ) (limits : Limits) (stage title : String) (inst : Instance σ)
  (values : Dict String) (w : World σ)

/-- An invocation of an instance: how it ends, and the world then. -/
def Instance.invocation : Ending (Log × Except Fault Unit) × World σ :=
  withLimit (inst.limit limits) (inst.task c stage title values w.instant)
    (w.notice (Context.resolveFor title inst.plugin.options values).2)

theorem executeStage_eq : executeStage c limits stage title inst values w =
    let out := inst.invocation c limits stage title values w
    let blank := blankLog stage title (resolve inst.plugin.options values) w.instant
    ((out.1.log blank (inst.limit limits)).stamped w out.2, out.2) := rfl

/-- What comes of an invocation of an instance for a section of a stage: the log and the world. -/
structure Upshot (x : Log × World σ) : Prop where
  /-- The log is that of the section. -/
  labels : inst.plugin.KeepsLabels → x.1.IsOf stage title
  finished : x.1.finishedAt = some x.2.instant
  duration : x.1.durationMs = some (x.2.wallMillis - w.wallMillis)
  /-- The start is known, unless the plugin itself has taken it out of the log. -/
  started : x.1.startedAt = some w.instant ∨ ∃ log result,
    (inst.invocation c limits stage title values w).1 = .done (log, result) ∧
      x.1.startedAt = log.startedAt
  /-- A plugin that comes to its end leaves its log. -/
  ok : ∀ log, (inst.invocation c limits stage title values w).1 = .done (log, .ok ()) →
    x.1 = log.stamped w x.2
  /-- An error takes the place of status and explanation, and nothing else. -/
  error : ∀ log fault,
    (inst.invocation c limits stage title values w).1 = .done (log, .error fault) →
    x.1 = (log.fail faultStatus
      ("Stage returned an error: " ++ Text.joinWith ": " fault.chain)).stamped w x.2
  /-- A panic leaves nothing that the plugin wrote. -/
  panic : ∀ payload, (inst.invocation c limits stage title values w).1 = .panicked payload →
    x.1 = ((blankLog stage title (resolve inst.plugin.options values) w.instant).fail faultStatus
      ("Stage panicked: " ++ payload.getD "unknown panic")).stamped w x.2
  /-- And neither does the end of its time. -/
  cut : ∀ limit, inst.limit limits = some limit →
    (inst.invocation c limits stage title values w).1 = .cut →
    x.1 = ((blankLog stage title (resolve inst.plugin.options values) w.instant).fail timeoutStatus
      ("Stage '" ++ title ++ "' timed out after " ++ limit.render)).stamped w x.2
  /-- What the plugin did to the world before its end stays done, however it ended; if it has no
  time at all, it has not begun. -/
  persists :
    let seen := w.notice (Context.resolveFor title inst.plugin.options values).2
    let done := inst.task c stage title values w.instant (seen.under (inst.limit limits))
    if (inst.limit limits).map Duration.millisUp = some 0 then
      (inst.invocation c limits stage title values w).1 = .cut ∧ x.2 = seen.settle
    else (inst.invocation c limits stage title values w).1 = done.1 ∧ x.2 = done.2.after ∧
      x.2.env = done.2.env

/-- **However a plugin ends, one log comes of its invocation.** -/
theorem upshot_executeStage : Upshot c limits stage title inst values w
    (executeStage c limits stage title inst values w) where
  labels h := isOf_executeStage c limits stage title h values w
  finished := rfl
  duration := rfl
  started := by
    rw [executeStage_eq]
    cases hending : (inst.invocation c limits stage title values w).1 with
    | done result =>
      obtain ⟨log, result⟩ := result
      refine .inr ⟨log, result, rfl, ?_⟩
      cases result with
      | ok => simp [hending, Ending.log, Log.stamped]
      | error fault => simp [hending, Ending.log, Log.stamped, Log.fail]
    | panicked payload =>
      exact .inl (by simp [hending, Ending.log, Log.stamped, Log.fail, blankLog])
    | cut => exact .inl (by simp [hending, Ending.log, Log.stamped, Log.fail, blankLog])
  ok log h := by
    rw [executeStage_eq]
    simp only [h, Ending.log]
  error log fault h := by
    rw [executeStage_eq]
    simp only [h, Ending.log]
    rfl
  panic payload h := by
    rw [executeStage_eq]
    simp only [h, Ending.log]
    rfl
  cut limit hlimit h := by
    rw [executeStage_eq]
    simp only [h, Ending.log, hlimit]
    rfl
  persists := by
    rw [executeStage_eq]
    split
    next hnone =>
      simp only [Instance.invocation, withLimit_of_none _ _ hnone, and_self]
    next hbegun =>
      simp only [Instance.invocation, withLimit_of_begun _ _ hbegun, World.env_after, and_self]

end Upshot

end Qualification
