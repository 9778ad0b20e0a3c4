import Qualification.Context
import Qualification.Limits
/-!
# Invocations of stages

A section of a stage invokes one plugin: that of the stage, or the tool or utility that the section
names. However the plugin ends, one log comes of it.

* `selectedPlugin?`: the name of another plugin in a section;
* `executeStage`: invokes a plugin under its time limit;
* `dispatch`: invokes the plugin that a section selects.
-/

namespace Qualification

/-- The plugin that a section selects, if it is another one than that of the stage. -/
def selectedPlugin? (stage : String) (values : Dict String) : Option String :=
  ((values.get? "plugin").map Text.trim).filter fun p => p != "" && p != stage

variable {σ : Type}

/-- An activity as a task of its own with a time limit. It does not begin if there is no time at all,
and tasks that it has started run for the first time at its end at the latest. -/
def withLimit {α : Type} (limit : Option Duration) (x : Act σ α) : Act σ α := fun w =>
  let millis := limit.map Duration.millisUp
  if millis = some 0 then (.cut, w.settle)
  else
    let (ending, w) := x { w with deadline := millis.map (w.now + ·), inStage := true }
    (ending, { w with deadline := none, inStage := false }.settle)

/-- The log of an invocation. A plugin that did not come to an end leaves nothing in it. -/
def Ending.log (template : Log) (limit : Option Duration) : Ending (Log × Except Fault Unit) → Log
  | .done (log, .ok ()) => log
  | .done (log, .error fault) => log.fail faultStatus s!"Stage returned an error: {fault.message}"
  | .panicked payload =>
    let text := payload.getD "unknown panic"
    template.fail faultStatus s!"Stage panicked: {text}"
  | .cut =>
    template.fail timeoutStatus
      (LimitViolation.stageTimeout template.section_ (limit.getD ⟨0⟩)).message

/-- Invokes a plugin for a section of a stage. -/
def executeStage (c : Context σ) (limits : Limits) (stage title : String) (inst : Instance σ)
    (values : Dict String) (w : World σ) : Log × World σ :=
  let (resolved, notices) := Context.resolveFor title inst.plugin.options values
  let template := { Log.new stage title with
    extra := resolved.passthrough
    startedAt := some w.instant }
  let limit := limits.stageTimeout inst.plugin.timeout
  let began := w.wallMillis
  let (ending, w) :=
    withLimit limit (inst.plugin.execute inst.id c.services template resolved) (w.notice notices)
  ({ ending.log template limit with
      finishedAt := some w.instant
      durationMs := some (w.wallMillis - began) }, w)

/-- Invokes the plugin that a section of a stage selects. -/
def dispatch (r : Registry σ) (c : Context σ) (limits : Limits) (unit : Registered σ)
    (title : String) (values : Dict String) (w : World σ) : Log × World σ :=
  match selectedPlugin? unit.key values with
  | none => executeStage c limits unit.key title unit.inst values w
  | some plugin =>
    match (r.lookup? .tool plugin).or (r.lookup? .utility plugin) with
    | some inst =>
      let (log, w) := executeStage c limits unit.key title inst values w
      (log.withExtra "plugin" plugin, w)
    | none =>
      (((Log.new unit.key title).withExtra "plugin" plugin).fail 1
        s!"Plugin '{plugin}' is not registered as stage '{unit.key}', a tool or a utility", w)

end Qualification
