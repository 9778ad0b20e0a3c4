import Qualification.Plugin
/-!
# The utility for the environment

Sets a variable for every value that it is given, declared or not.
-/

namespace Qualification.Environ

variable {σ : Type}

/-- Sets the variables. -/
def execute (log : Log) (r : Resolved) : Act σ (Log × Except Fault Unit) := do
  Act.modify fun w => { w with env := (w.env.union r.values).union r.passthrough }
  return ({ log with status := 0 }, .ok ())

/-- The utility. -/
def plugin : Plugin σ := Plugin.simple "Environ" fun _ _ => execute

end Qualification.Environ
