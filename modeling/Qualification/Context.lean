import Qualification.Registry.Basic
import Qualification.Section.Store
/-!
# Contexts of runs

A context holds what all invocations of a run share: its sections, what runs commands, and the tools
and utilities that plugins may invoke.

* `Context.invoke`: invokes a tool or utility; a fault in it stays in its log;
* `Context.services`: what a stage may use.
-/

namespace Qualification

/-- What the invocations of a run share. -/
structure Context (σ : Type) where
  runId : Uuid
  config : Sections
  executor : Executor σ
  moduleCommand : Option (List String)
  scratchDir : Option String
  tools : Dict (Instance σ)
  utilities : Dict (Instance σ)

namespace Context

variable {σ : Type}

/-- The tool or utility of a key; stages cannot be invoked. -/
def toolbox? (c : Context σ) (role : Role) (key : String) : Option (Instance σ) :=
  match role with
  | .stage => none
  | .tool => c.tools.get? key
  | .utility => c.utilities.get? key

/-- The values of some options, with a notice for every key that is passed through. -/
def resolveFor (name : String) (spec : OptionSpec) (overrides : Dict String) :
    Resolved × List Notice :=
  let resolved := resolve spec overrides
  (resolved, resolved.passthrough.keys.map (.undeclaredOption name))

/-- How deep plugins may invoke one another before there is no answer. A program has no such number,
only what its stack holds: this one stands for that, and nothing that is not nested so deep depends
on it. -/
def nestingLimit : Nat := 4096

/-- Invokes a tool or utility. Its options come from the section titled with its key, with values on
top. Its log tells every failure; deeper than `depth` there is no answer. -/
def invokeAt (c : Context σ) : (depth : Nat) → Role → String → Dict String → Act σ Log
  | 0, _, _, _ => Act.panicWith none
  | depth + 1, role, key, overrides => do
    let log := Log.new key key
    match c.toolbox? role key with
    | none => return log.fail 1 s!"No {role.label} named '{key}' is registered"
    | some inst =>
      let merged := ((c.config.get? key).getD Dict.empty).union overrides
      let (resolved, notices) := resolveFor key inst.plugin.options merged
      Act.modify (·.notice notices)
      let log := { log with extra := log.extra.union resolved.passthrough }
      let services : Services σ := ⟨c.invokeAt depth, c.executor, c.moduleCommand, c.scratchDir⟩
      match ← inst.plugin.execute inst.id services log resolved with
      | (log, .ok ()) => return log
      | (log, .error fault) => return log.fail faultStatus fault.message

/-- Invokes a tool or utility. -/
def invoke (c : Context σ) : Role → String → Dict String → Act σ Log := c.invokeAt nestingLimit

/-- What a stage may use. -/
def services (c : Context σ) : Services σ :=
  ⟨c.invoke, c.executor, c.moduleCommand, c.scratchDir⟩

end Context

end Qualification
