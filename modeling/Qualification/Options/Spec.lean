import Qualification.Dict
import Qualification.Json.Basic
/-!
# Declared options

A plugin declares the options that it understands, each with a default and a line of help.
-/

namespace Qualification

/-- The default and the description of an option. -/
structure OptionDef where
  default : String
  description : String
  deriving DecidableEq, Inhabited

/-- The declared options by name. -/
abbrev OptionSpec := Dict OptionDef

namespace OptionSpec

/-- Declares an option. -/
def declare (s : OptionSpec) (name default description : String) : OptionSpec :=
  s.insert name ⟨default, description⟩

/-- A line of help for each option: its name, its default and its description. -/
def describe (s : OptionSpec) : List String :=
  s.toList.map fun (name, d) =>
    name ++ ": " ++ (if d.default.isEmpty then "(none)" else d.default) ++ " - " ++ d.description

end OptionSpec

namespace OptionDef

/-- Reads the declaration of one option. -/
def ofJson? (j : Json) : Option OptionDef := do
  let r ← j.record? ["default", "description"]
  let default ← r.withDefault "default" "" Json.asText?
  let description ← r.withDefault "description" "" Json.asText?
  pure ⟨default, description⟩

end OptionDef

/-- Reads declared options; of two with one name the last one counts. -/
def OptionSpec.ofJson? (j : Json) : Option OptionSpec := do
  let fields ← j.asObject?
  let es ← fields.mapM fun f => (OptionDef.ofJson? f.2).map (f.1, ·)
  pure (Dict.ofList es)

end Qualification
