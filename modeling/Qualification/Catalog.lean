import Qualification.Plugin.CommandLine
import Qualification.Plugin.Environ
import Qualification.Plugin.HarasserUtility
import Qualification.Plugin.Snippet
import Qualification.Registry.Basic
/-!
# The standard plugins

The implementations that manifests may name, and the registry that every run begins with.
-/

namespace Qualification

variable {σ : Type}

namespace Catalog

/-- Builds a plugin that can only have one role. -/
def only (allowed : Role) (implementation article : String) (plugin : Plugin σ) : Factory σ :=
  fun role key _ =>
    if role = allowed then .ok (role, plugin)
    else .error (.ofText
      s!"'{key}' cannot be a {role.label}: {implementation} is {article} {allowed.label}")

/-- The implementations that manifests may name. -/
def standard : Catalog σ := Dict.ofList [
  ("command", CommandLine.factory),
  ("shell", only .tool "shell" "a" Snippet.plugin),
  ("environ", only .utility "environ" "a" Environ.plugin),
  ("harasser", only .utility "harasser" "a" HarasserUtility.plugin)]

end Catalog

/-- The registry with the standard plugins. -/
def Registry.standard : Registry σ :=
  let r := Registry.new Catalog.standard
  let r := (r.register "Shell" .tool Snippet.plugin).registry
  let r := (r.register "Environ" .utility Environ.plugin).registry
  (r.register "Harasser" .utility HarasserUtility.plugin).registry

end Qualification
