import Qualification.Activity
import Qualification.Log
import Qualification.Options.Resolved
import Qualification.Role
/-!
# Plugins

A plugin declares options and acts on a log. It reaches the rest of a run only through the services
that it is given: other plugins, the executor of commands, environment modules, the directory for
commands.

* `Plugin`, `Services`;
* `Instance`: a plugin that was brought into being once, in a role; its number tells it from others;
* `Registered`: an instance under its key.
-/

namespace Qualification

/-- What a plugin may use. -/
structure Services (σ : Type) where
  /-- Invokes a tool or utility by key, with values on top of its section. -/
  invoke : Role → String → Dict String → Act σ Log
  executor : Executor σ
  /-- The words of the command for environment modules, if there is one. -/
  moduleCommand : Option (List String)
  /-- The directory that commands run in. -/
  scratchDir : Option String

/-- A plugin. -/
structure Plugin (σ : Type) where
  display : String
  options : OptionSpec
  /-- Its own time limit. -/
  timeout : Option Duration
  /-- The place of a stage: lower keys run earlier. -/
  ordering : Int
  /-- What comes of activating the instance of a number. -/
  activation : Nat → Except Fault Unit
  /-- What activating it does to the world. -/
  engage : World σ → World σ
  /-- Acts on a log; the number is that of the instance. -/
  execute : Nat → Services σ → Log → Resolved → Act σ (Log × Except Fault Unit)
  /-- Gives up what an instance still holds. -/
  release : Nat → World σ → World σ

namespace Plugin

variable {σ : Type}

/-- A plugin without options, limit and clean-up. -/
def simple (display : String)
    (execute : Nat → Services σ → Log → Resolved → Act σ (Log × Except Fault Unit)) : Plugin σ :=
  ⟨display, Dict.empty, none, 0, fun _ => .ok (), id, execute, fun _ w => w⟩

end Plugin

/-- A plugin brought into being, in a role. -/
structure Instance (σ : Type) where
  id : Nat
  role : Role
  plugin : Plugin σ

/-- The ordering key, which only stages have. -/
def Instance.orderingKey? {σ : Type} (i : Instance σ) : Option Int :=
  if i.role = .stage then some i.plugin.ordering else none

/-- An instance under its key. -/
structure Registered (σ : Type) where
  key : String
  inst : Instance σ

end Qualification
