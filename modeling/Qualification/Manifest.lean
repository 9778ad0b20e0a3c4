import Qualification.FileTree
import Qualification.Plugin
import Qualification.Yaml.Record
/-!
# Manifests

A file whose name holds a role's marker is a candidate; the entry of the file under the name without
its extension describes a plugin, and names the implementation that builds it.

* `PluginDefinition`: an entry;
* `Catalog`: the implementations by name;
* `Candidate.scan`: the candidates below a directory, sorted by path;
* `Candidate.load`: the plugin of a candidate, if its file holds one.
-/

namespace Qualification

/-- An entry that describes a plugin. -/
structure PluginDefinition where
  description : String
  /-- The place of a stage. -/
  ordering : Option Int
  implementation : Option String
  command : List String
  timeoutSeconds : Option Nat
  options : OptionSpec
  deriving Inhabited

/-- Why discovery failed. -/
inductive DiscoveryError where
  | missingRoot (path : String)
  | unreadable (path : String)
  | unparsable (path : String)
  | invalid (name reason : String)
  | unknownImplementation (name implementation : String)
  | activation (name message : String)
  deriving DecidableEq

/-- The text of a failure, where it is wholly this library's. -/
def DiscoveryError.message : DiscoveryError → String
  | missingRoot path => s!"Plugin directory not found: {path}"
  | unreadable path => s!"Failed to read plugin file {path}"
  | unparsable path => s!"Failed to parse plugin file {path}"
  | invalid name reason => s!"Invalid plugin '{name}': {reason}"
  | unknownImplementation name implementation =>
    s!"Plugin '{name}' names unknown implementation '{implementation}'"
  | activation name message => s!"Plugin '{name}' failed to activate: {message}"

namespace PluginDefinition

/-- An entry that says nothing. -/
def empty : PluginDefinition := ⟨"", none, none, [], none, Dict.empty⟩

def fieldNames : List String :=
  ["description", "ordering", "implementation", "command", "timeout_seconds", "options"]

/-- The name of the implementation that builds the plugin. -/
def implementationName (d : PluginDefinition) : String := d.implementation.getD "command"

/-- Reads the declared option of an entry. -/
def optionOfYaml? (v : Yaml.Value) : Option OptionDef := do
  let fields ← Yaml.Fields.ofList? ["default", "description"] (← v.entries?)
  pure ⟨← fields.withDefault "default" "" Yaml.Value.text?,
    ← fields.withDefault "description" "" Yaml.Value.text?⟩

/-- Reads the declared options of an entry. -/
def optionsOfYaml? (v : Yaml.Value) : Option OptionSpec := do
  let es ← (← v.entries?).mapM fun e => (optionOfYaml? e.2).map (e.1, ·)
  pure (Dict.ofList es)

/-- Reads an entry, which may only have the known fields. -/
def ofYaml? (v : Yaml.Value) : Option PluginDefinition := do
  let es ← v.entries?
  if es.any fun e => !fieldNames.contains e.1 then none
  else
    let r ← Yaml.Fields.ofList? fieldNames es
    pure {
      description := ← r.withDefault "description" "" Yaml.Value.text?
      ordering := ← r.withDefault "ordering" none
        (Yaml.Value.optional? fun v => v.int?.filter Word.isInt64)
      implementation := ← r.withDefault "implementation" none (Yaml.Value.optional? Yaml.Value.text?)
      command := ← r.withDefault "command" [] fun v => do (← v.items?).mapM Yaml.Value.text?
      timeoutSeconds := ← r.withDefault "timeout_seconds" none
        (Yaml.Value.optional? fun v => (v.int?.filter Word.isUInt64).map Int.toNat)
      options := ← r.withDefault "options" Dict.empty optionsOfYaml? }

/-- Reads an entry from JSON. -/
def ofJson? (j : Json) : Option PluginDefinition := do
  let unknown := match j with
    | .object fields => fields.any fun f => !fieldNames.contains f.1
    | _ => false
  if unknown then none
  else
    let r ← j.record? fieldNames
    pure {
      description := ← r.withDefault "description" "" Json.asText?
      ordering := ← r.withDefault "ordering" none (Json.asOption? Json.asInt64?)
      implementation := ← r.withDefault "implementation" none (Json.asOption? Json.asText?)
      command := ← r.withDefault "command" [] fun j => do (← j.asArray?).mapM Json.asText?
      timeoutSeconds := ← r.withDefault "timeout_seconds" none (Json.asOption? Json.asNat?)
      options := ← r.withDefault "options" Dict.empty OptionSpec.ofJson? }

end PluginDefinition

/-- Builds a plugin in some role from the asked role, its key and its entry. -/
def Factory (σ : Type) : Type :=
  Role → String → PluginDefinition → Except Fault (Role × Plugin σ)

/-- The implementations by name. -/
abbrev Catalog (σ : Type) : Type := Dict (Factory σ)

/-- A file that may describe a plugin. -/
structure Candidate where
  /-- The directory names below the root, and the file name. -/
  names : List String
  path : String
  place : Place
  stem : String
  role : Role
  key : String
  deriving DecidableEq

namespace Candidate

/-- Whether a file name has an extension of manifests. -/
def isManifest (name : String) : Bool := Text.endsWith name ".yaml" || Text.endsWith name ".yml"

/-- The candidate that a file below a root is, if it is one. -/
def ofFile? (root : String) (rootPlace place : Place) : Option Candidate := do
  let names := place.drop rootPlace.length
  let name ← names.getLast?
  if !isManifest name then none
  else
    let stem := Path.stem name
    let role ← Role.ofName? stem
    pure ⟨names, Path.join root (Text.joinWith "/" names), place, stem, role, role.keyOf stem⟩

/-- Inserts a candidate into a list sorted by path. -/
def insertSorted (c : Candidate) : List Candidate → List Candidate
  | [] => [c]
  | d :: ds => if Path.before c.names d.names then c :: d :: ds else d :: insertSorted c ds

/-- The candidates below a directory, sorted by path. -/
def scan (files : FileTree) (cwd : Place) (root : String) :
    Except DiscoveryError (List Candidate) :=
  match (files.resolve? cwd root).filter files.isDirectory with
  | none => .error (.missingRoot root)
  | some place =>
    .ok (((files.filesBelow place).filterMap (ofFile? root place)).foldl
      (fun cs c => insertSorted c cs) [])

/-- The entry of a file under its stem. -/
def entry? (files : FileTree) (c : Candidate) : Except DiscoveryError (Option Yaml.Value) :=
  match (files.read? c.place).bind Text.decode? with
  | none => .error (.unreadable c.path)
  | some content =>
    match Yaml.value? content with
    | none => .error (.unparsable c.path)
    | some v => .ok (v.entry? c.stem)

variable {σ : Type}

/-- Builds the plugin of an entry. -/
def build (catalog : Catalog σ) (c : Candidate) (d : PluginDefinition) :
    Except DiscoveryError (Plugin σ) :=
  if Text.isBlankText c.key then .error (.invalid c.stem "registry key is empty")
  else if c.role = .stage ∧ d.ordering.isNone then
    .error (.invalid c.stem "stages must declare an ordering")
  else
    match catalog.get? d.implementationName with
    | none => .error (.unknownImplementation c.stem d.implementationName)
    | some factory =>
      match factory c.role c.key d with
      | .error fault => .error (.invalid c.stem fault.message)
      | .ok (role, plugin) =>
        if role = c.role then .ok plugin
        else
          .error (.invalid c.stem
            s!"implementation '{d.implementationName}' built a {role.label} instead of a {c.role.label}")

/-- The plugin of a candidate, if its file has an entry for it. -/
def load (files : FileTree) (catalog : Catalog σ) (c : Candidate) :
    Except DiscoveryError (Option (Plugin σ)) :=
  match c.entry? files with
  | .error e => .error e
  | .ok none => .ok none
  | .ok (some v) =>
    match PluginDefinition.ofYaml? v with
    | none => .error (.unparsable c.path)
    | some d => (c.build catalog d).map some

end Candidate

end Qualification
