import Qualification.Digest.Sha256
import Qualification.FileTree
import Qualification.Limits
import Qualification.Section.Store
/-!
# Run definitions

A run definition names a run and gives its failure policy, its limits and its sections. It is read
from YAML; `RunDefinition.sections?` turns its sections into texts, and `RunDefinition.fault?` finds
the first fault in it.
-/

namespace Qualification

/-- A run definition as it was read. -/
structure RunDefinition where
  name : String
  description : String
  continueOnFailure : Bool
  limits : Limits
  /-- Section titles and their contents, in order. -/
  sections : List (Yaml.Value × Yaml.Value)

/-- Why there is no run definition. -/
inductive DefinitionReadError where
  | unreadable (path : String)
  | unparsable
  deriving DecidableEq

/-- The text of an error. -/
def DefinitionReadError.message : DefinitionReadError → String
  | unreadable path => s!"Failed to read run definition: {path}"
  | unparsable => "Failed to parse run definition YAML"

/-- A fault in a run definition. -/
inductive DefinitionError where
  | emptyName
  | emptySection
  | nonStringTitle (title : String)
  | nonMappingSection (title : String)
  | nonScalar (title key : String)
  | selfParent (title : String)
  | reservedKey (title key : String)
  deriving DecidableEq

/-- The text of a fault. -/
def DefinitionError.message : DefinitionError → String
  | emptyName => "Run definition name cannot be empty"
  | emptySection => "Section name cannot be empty"
  | nonStringTitle title => s!"Section title {title} must be a string"
  | nonMappingSection title => s!"Section '{title}' must be a mapping of options"
  | nonScalar title key =>
    s!"Section '{title}' key '{key}' must be a string, number or boolean"
  | selfParent title => s!"Section '{title}' cannot declare itself as its parent"
  | reservedKey title key => s!"Section '{title}' cannot set reserved key '{key}'"

namespace RunDefinition

/-- Reads a definition from YAML. -/
def parse? (yaml : String) : Option RunDefinition := do
  let d ← Yaml.document? yaml
  let r ← d.rootRecord? ["name", "description", "continue_on_failure", "limits", "sections"]
  let name ← r.withDefault "name" "default" d.text?
  let description ← r.withDefault "description" "" d.text?
  let continueOnFailure ← r.withDefault "continue_on_failure" false d.bool?
  let limits ← r.withDefault "limits" Limits.unlimited (Limits.ofYaml? d)
  let sections ← r.withDefault "sections" [] (d.mapping? (Yaml.Document.maxDepth - 1))
  pure ⟨name, description, continueOnFailure, limits, sections⟩

/-- Reads a definition from a text. -/
def read (yaml : String) : Except DefinitionReadError RunDefinition :=
  match parse? yaml with
  | some d => .ok d
  | none => .error .unparsable

/-- The text of a definition file. -/
def fileText (files : FileTree) (cwd : Place) (path : String) : Except DefinitionReadError String :=
  match (files.resolve? cwd path).bind fun p => (files.read? p).bind Text.decode? with
  | some yaml => .ok yaml
  | none => .error (.unreadable path)

/-- Reads a definition from a file. -/
def load (files : FileTree) (cwd : Place) (path : String) :
    Except DefinitionReadError RunDefinition := do
  read (← fileText files cwd path)

/-- The text of a scalar; null is an empty text. -/
def scalarText? : Yaml.Value → Option String
  | .text s => some s
  | .number n => some n.render
  | .bool b => some (toString b)
  | .null => some ""
  | _ => none

/-- The text of a section title: a text or a number. -/
def titleText (title : Yaml.Value) : Except DefinitionError String :=
  match title with
  | .text s => .ok s
  | .number n => .ok n.render
  | other => .error (.nonStringTitle other.describe)

/-- The values of a section, as texts. -/
def sectionValues (title : String) : List (Yaml.Value × Yaml.Value) →
    Except DefinitionError (List (String × String))
  | [] => .ok []
  | (k, v) :: rest =>
    match scalarText? k with
    | none => .error (.nonScalar title k.describe)
    | some key =>
      match scalarText? v with
      | none => .error (.nonScalar title key)
      | some value => do
        let more ← sectionValues title rest
        .ok ((key, value) :: more)

/-- A section: its title and its values; null has none. -/
def section? (title content : Yaml.Value) : Except DefinitionError (String × Dict String) := do
  let title ← titleText title
  match content with
  | .null => .ok (title, Dict.empty)
  | .mapping es => do
    let values ← sectionValues title es
    .ok (title, Dict.ofList values)
  | _ => .error (.nonMappingSection title)

/-- The sections as texts, or the first fault in one. -/
def sections? (d : RunDefinition) : Except DefinitionError Sections := do
  let es ← d.sections.mapM fun e => section? e.1 e.2
  .ok (Sections.ofList es)

/-- The fault of one section with texts, if it has one. -/
def sectionFault? (title : String) (values : Dict String) : Option DefinitionError :=
  let parts := Title.parse title
  if parts.stage.isEmpty || parts.name == some "" then some .emptySection
  else if values.contains "section" then some (.reservedKey title "section")
  else if (values.get? "parent").map Text.trim == some (Text.trim title) then
    some (.selfParent title)
  else none

/-- The first fault of a definition, if it has one. -/
def fault? (d : RunDefinition) : Option DefinitionError :=
  if Text.isBlankText d.name then some .emptyName
  else match d.sections? with
    | .error e => some e
    | .ok s => s.entries.findSome? fun e => sectionFault? e.1 e.2

/-- The digest of a definition's text: the first eight bytes of its SHA-256 digest. -/
def digest (yaml : String) : String := String.ofList ((Sha256.hex yaml).toList.take 16)

end RunDefinition

end Qualification
