import Qualification.Dict
import Qualification.FileTree
import Qualification.Limits
/-!
# Settings

Settings say where runs are kept and where plugins are found. They come from the nearest settings file
in a directory or one of those around it, and from variables, which count more.

* `Settings.findFile?`, `SettingsFile.ofYaml?`, `Settings.load`.
-/

namespace Qualification

/-- The contents of a settings file. -/
structure SettingsFile where
  home : Option String
  pluginDirs : List String
  limits : Limits
  wrapper : Option String

/-- Settings as they apply. -/
structure Settings where
  /-- The directory of runs and their journals. -/
  home : String
  pluginDirs : List String
  limits : Limits
  /-- The command for environment modules. -/
  wrapper : Option String
  /-- The settings file, if there is one. -/
  file : Option String

/-- Why there are no settings. -/
inductive SettingsError where
  | unreadable (path : String)
  | unparsable (path : String)
  deriving DecidableEq

/-- The text of an error. -/
def SettingsError.message : SettingsError → String
  | unreadable path => s!"Failed to read config file: {path}"
  | unparsable path => s!"Failed to parse config file: {path}"

namespace SettingsFile

/-- Reads the paths of a settings file. -/
def paths? (d : Yaml.Document) (n : Yaml.Node) : Option (Option String × List String) := do
  let r ← d.record? ["home", "plugin_dirs"] n
  let home ← r.withDefault "home" none (d.optional? d.text?)
  let dirs ← r.withDefault "plugin_dirs" [] d.texts?
  pure (home, dirs)

/-- Reads the part of a settings file about environment modules. -/
def wrapper? (d : Yaml.Document) (n : Yaml.Node) : Option (Option String) := do
  let r ← d.record? ["wrapper"] n
  r.withDefault "wrapper" none (d.optional? d.text?)

/-- Reads a settings file; it must name its version. -/
def parse? (yaml : String) : Option SettingsFile := do
  let d ← Yaml.document? yaml
  let r ← d.rootRecord? ["version", "paths", "limits", "modules"]
  let _ ← (r.get? "version").bind d.text?
  let (home, pluginDirs) ← r.withDefault "paths" (none, []) (paths? d)
  let limits ← r.withDefault "limits" Limits.unlimited (Limits.ofYaml? d)
  let wrapper ← r.withDefault "modules" none (wrapper? d)
  pure ⟨home, pluginDirs, limits, wrapper⟩

end SettingsFile

namespace Settings

/-- The name of the directory of settings and of runs. -/
def directoryName : String := ".qualrun"

def homeVariable : String := "QUALRUN_HOME"

def pluginPathVariable : String := "QUALRUN_PLUGIN_PATH"

/-- The settings directory nearest to a directory that is given by its names, innermost first. -/
def findFrom? (files : FileTree) : List String → Option Place
  | [] => inDirectory? []
  | n :: outer => (inDirectory? (n :: outer).reverse).or (findFrom? files outer)
where
  /-- The settings file of one directory. -/
  inDirectory? (p : Place) : Option Place :=
    let file := p ++ [directoryName, "config.yaml"]
    (files.entry? file).map fun _ => file

/-- The settings file nearest to a directory. -/
def findFile? (files : FileTree) (cwd : Place) : Option Place := findFrom? files cwd.reverse

/-- A path that may be relative to a directory: absolute and plain where it leads to something. -/
def resolvePath (files : FileTree) (base : Place) (path : String) : String :=
  if Path.isAbsolute path then path
  else
    let joined := Path.join (Path.ofPlace base) path
    match files.resolve? [] joined with
    | some place => if (files.entry? place).isSome then Path.ofPlace place else joined
    | none => joined

/-- The directories of a list with colons between them. -/
def splitDirs (list : Option String) : List String :=
  match list with
  | none => []
  | some dirs => (Text.splitOn ':' dirs).filter fun d => !Text.isBlankText d

/-- Loads the settings that apply in a directory. -/
def load (files : FileTree) (cwd : Place) (defaultHome : String) (env : Dict String) :
    Except SettingsError Settings :=
  let envHome := env.get? homeVariable
  let envDirs := splitDirs (env.get? pluginPathVariable)
  match findFile? files cwd with
  | none => .ok ⟨envHome.getD defaultHome, envDirs, Limits.unlimited, none, none⟩
  | some place =>
    let path := Path.ofPlace place
    match (files.read? place).bind Text.decode? with
    | none => .error (.unreadable path)
    | some yaml =>
      match SettingsFile.parse? yaml with
      | none => .error (.unparsable path)
      | some file => .ok {
          home := (envHome.or (file.home.map (resolvePath files place.dropLast))).getD defaultHome
          pluginDirs :=
            file.pluginDirs.map (resolvePath files place.dropLast.dropLast) ++ envDirs
          limits := file.limits
          wrapper := file.wrapper.filter fun w => !Text.isBlankText w
          file := some path }

/-- The directory of the runs. -/
def runsDir (s : Settings) : String := Path.join s.home "runs"

end Settings

end Qualification
