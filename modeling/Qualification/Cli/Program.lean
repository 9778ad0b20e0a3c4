import Qualification.Catalog
import Qualification.Cli.Arguments
import Qualification.Definition
import Qualification.Journal
import Qualification.Json.Printer
import Qualification.Machine
import Qualification.Run.Pipeline
import Qualification.Settings
/-!
# The program

What each action of the command line does on a machine: the machine afterwards, what is printed, and
how the process ends.

* `Cli.Outcome`, `Cli.perform`, `Cli.execute`.
-/

namespace Qualification.Cli

/-- What came of an action. -/
structure Outcome where
  machine : Machine
  stdout : String
  /-- Why the action failed. -/
  failure : Option String
  exit : Int

/-- The name of the program and its version. -/
def versionText : String := "qualrun 0.1.0\n"

namespace Outcome

/-- An action that printed something and succeeded. -/
def printed (m : Machine) (stdout : String) : Outcome := ⟨m, stdout, none, 0⟩

/-- An action that failed. -/
def failed (m : Machine) (message : String) : Outcome := ⟨m, "", some message, 1⟩

/-- The outcome of an action that may fail. -/
def ofExcept (m : Machine) : Except String Outcome → Outcome
  | .ok o => o
  | .error message => failed m message

end Outcome

/-- What may fail with a message. -/
def explained {ε α : Type} (message : ε → String) : Except ε α → Except String α
  | .ok a => .ok a
  | .error e => .error (message e)

/-- The settings of a machine. -/
def settings (m : Machine) : Except String Settings :=
  match (m.env.get? "HOME").filter (· != "") with
  | none => .error "Failed to determine home directory"
  | some home =>
    explained SettingsError.message
      (Settings.load m.files m.cwd (Path.join home Settings.directoryName) m.env)

/-- Discovers plugins in directories, one after the other. -/
def discoverAll (m : Machine) : List String → Registry Machine → Except String (Registry Machine)
  | [], r => .ok r
  | dir :: dirs, r =>
    let found := r.discover m.files m.cwd dir
    match found.result with
    | .ok _ => discoverAll m dirs found.registry
    | .error _ => .error s!"Plugin discovery failed in {dir}"

/-- The standard plugins and those of the settings and of other directories. -/
def registry (m : Machine) (s : Settings) (dirs : List String) : Except String (Registry Machine) :=
  discoverAll m (s.pluginDirs ++ dirs) Registry.standard

/-! ## Runs -/

/-- A definition, its text, and its sections. -/
def definition (m : Machine) (path : String) :
    Except String (RunDefinition × String × Sections) := do
  let yaml ← explained DefinitionReadError.message (RunDefinition.fileText m.files m.cwd path)
  let d ← explained (fun _ => s!"Invalid run definition: {path}") (RunDefinition.read yaml)
  match d.fault? with
  | some fault => .error fault.message
  | none =>
    let sections ← explained DefinitionError.message d.sections?
    .ok (d, yaml, sections)

/-- The machine with the directory for commands. -/
def withScratchDir (m : Machine) : Option String → Except String Machine
  | none => .ok m
  | some dir =>
    match m.files.makeDirs? m.cwd dir with
    | some files => .ok { m with files }
    | none => .error s!"Failed to create scratch directory: {dir}"

/-- The machine with a directory for the journal of a run, if one is kept. -/
def withJournal (m : Machine) (s : Settings) (runId : Uuid) (keep : Bool) :
    Except String (Option Journal × Machine) :=
  if keep then
    match Journal.openIn m.files m.cwd s.runsDir runId with
    | .ok (j, files) => .ok (some j, { m with files })
    | .error e => .error e.message
  else .ok (none, m)

/-- The machine with the file of a journal that was kept beside it. -/
def keepJournal (m : Machine) (journal : Option Journal) (files : FileTree) : Machine :=
  match journal.bind fun j => (files.read? j.eventsPlace).map (j.eventsPlace, ·) with
  | some (place, bytes) => { m with files := (m.files.write? place bytes).getD m.files }
  | none => m

/-- Runs the pipeline of a definition. -/
def run (m : Machine) (r : RunRequest) : Except String Outcome := do
  let s ← settings m
  let (d, yaml, sections) ← definition m r.definition
  let registry ← registry m s r.pluginDirs
  let (runId, world) := { World.start m m.clock true with nextId := m.seed }.freshUuid
  let m ← withScratchDir m r.scratchDir
  let (journal, m) ← withJournal m s runId !r.noJournal
  let pipeline : Pipeline Machine FileTree := {
    policy := {
      name := d.name
      continueOnFailure := d.continueOnFailure || r.continueOnFailure
      limits := d.limits.orElse s.limits
      digest := some (RunDefinition.digest yaml) }
    registry
    context := {
      runId
      config := sections
      executor := if r.dryRun then Machine.dryExecutor else Machine.executor
      moduleCommand := Modules.command? s.wrapper
      scratchDir := r.scratchDir
      tools := registry.tools
      utilities := registry.utilities }
    recorder := match journal with
      | some j => j.recorder
      | none => fun _ files => files }
  let (report, g) := pipeline.run { world with host := m } m.files
  let world := LifeCall.effects g.world registry.shutdown.2
  let m := keepJournal { world.host with clock := world.instant, seed := world.nextId } journal g.journal
  .ok ⟨m, if r.json then report.toJson.pretty ++ "\n" else report.table, none, report.exitCode⟩

/-! ## Lists -/

/-- The lines about a plugin: its name and place, and its options. -/
def pluginLines (u : Registered Machine) : List String :=
  let place := match u.inst.orderingKey? with
    | some key => s!"[{key}] "
    | none => ""
  ("  " ++ Text.padRight 20 u.key ++ " " ++ place ++ u.inst.plugin.display) ::
    (OptionSpec.describe u.inst.plugin.options).map ("      " ++ ·)

/-- A title and the lines about plugins. -/
def pluginParagraph (title : String) (units : List (Registered Machine)) : List String :=
  title :: if units.isEmpty then ["  (none)"] else units.flatMap pluginLines

/-- The plugins of a dictionary by key. -/
def unitsOf (d : Dict (Instance Machine)) : List (Registered Machine) :=
  d.toList.map fun e => ⟨e.1, e.2⟩

/-- Lines, each of them ended. -/
def unlines (ls : List String) : String := String.join (ls.map (· ++ "\n"))

/-- Lists all plugins. -/
def plugins (m : Machine) (dirs : List String) : Except String Outcome := do
  let s ← settings m
  let r ← registry m s dirs
  .ok (.printed m (unlines (
    pluginParagraph "Stages (execution order):" r.ordered ++ "" ::
    pluginParagraph "Tools:" (unitsOf r.tools) ++ "" ::
    pluginParagraph "Utilities:" (unitsOf r.utilities))))

/-- The record of a run. -/
def recordOf (m : Machine) (base : String) (runId : Uuid) : Except String RunRecord := do
  let dir := Path.join base runId.render
  if !(m.files.resolve? m.cwd dir).any m.files.isDirectory then
    .error s!"No run found with ID {runId.render}"
  else
    let (j, files) ← explained JournalError.message (Journal.openIn m.files m.cwd base runId)
    match ← explained JournalError.message (j.record files) with
    | some r => .ok r
    | none => .error s!"No events recorded for run {runId.render}"

/-- Tells how far a run is. -/
def status (m : Machine) (text : String) : Except String Outcome := do
  match Uuid.parse? text with
  | none => .error s!"Invalid run ID: {text}"
  | some runId =>
    let s ← settings m
    let r ← recordOf m s.runsDir runId
    let completed := match r.completedAt with
      | some t => [s!"Completed: {t.describe}"]
      | none => []
    .ok (.printed m (unlines (
      [s!"Run ID: {r.id.render}", s!"Name: {r.name}", s!"State: {r.state.describe}",
        s!"Started: {r.startedAt.describe}"] ++ completed ++ ["", "Stage statuses:"] ++
      r.logs.map fun l => s!"  {l.section_}: {describeStatus l.status}")))

/-- Puts a record before the first one that began earlier. -/
def insertRecord (r : RunRecord) : List RunRecord → List RunRecord
  | [] => [r]
  | x :: xs => if x.startedAt.before r.startedAt then r :: x :: xs else x :: insertRecord r xs

/-- The line of a run. -/
def runLine (id name state : String) : String :=
  id ++ " " ++ Text.padRight 20 name ++ " " ++ Text.padRight 15 state

/-- Lists the latest runs. -/
def runs (m : Machine) (limit : Nat) : Except String Outcome := do
  let s ← settings m
  let ids ← explained JournalError.message (Journal.listRuns m.files m.cwd s.runsDir)
  let records := (ids.filterMap fun id => (recordOf m s.runsDir id).toOption).foldl
    (fun rs r => insertRecord r rs) []
  if records.isEmpty then .ok (.printed m "No runs found\n")
  else
    .ok (.printed m (unlines (
      [runLine (Text.padRight 38 "RUN ID") "NAME" "STATE", String.ofList (List.replicate 75 '-')] ++
      (records.take limit).map fun r => runLine r.id.render r.name r.state.describe)))

/-- Tells a limit. -/
def limitText : Option Nat → String
  | some n => s!"{n}s"
  | none => "unlimited"

/-- Tells the settings. -/
def config (m : Machine) : Except String Outcome := do
  let s ← settings m
  let file := s.file.getD "(none - using defaults)"
  let dirs := if s.pluginDirs.isEmpty then ["  (none)"] else s.pluginDirs.map ("  " ++ ·)
  let wrapper := s.wrapper.getD "(none)"
  .ok (.printed m (unlines (
    ["qualrun configuration", "", s!"Config file: {file}", "", "Paths:", s!"  Home: {s.home}",
      s!"  Runs: {s.runsDir}", "", "Plugin directories:"] ++ dirs ++
    ["", "Limits:", s!"  Stage timeout: {limitText s.limits.stageSeconds}",
      s!"  Run timeout:   {limitText s.limits.runSeconds}", "", s!"Module wrapper: {wrapper}"])))

/-- Performs an action. -/
def perform (m : Machine) : Action → Outcome
  | .run r => .ofExcept m (run m r)
  | .plugins dirs => .ofExcept m (plugins m dirs)
  | .status id => .ofExcept m (status m id)
  | .runs limit => .ofExcept m (runs m limit)
  | .config => .ofExcept m (config m)
  | .version => .printed m versionText

/-- How the program is called. -/
def usageText : String :=
  "Usage: qualrun <COMMAND>\n\nCommands:\n" ++
  "  run      Run the pipeline described by a run definition\n" ++
  "  plugins  List registered and discovered plugins\n" ++
  "  status   Check the status of a run\n" ++
  "  runs     List recent runs\n" ++
  "  config   Show resolved configuration (debug)\n"

/-- Does what arguments ask for; a process whose arguments cannot be understood ends with status 2
and says nothing on its output. -/
def execute (m : Machine) (args : List String) : Outcome :=
  match Action.parse args m.env with
  | .ok action => perform m action
  | .error .help => .printed m usageText
  | .error _ => ⟨m, "", some usageText, 2⟩

end Qualification.Cli
