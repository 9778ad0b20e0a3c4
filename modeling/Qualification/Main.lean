import Qualification.Cli.Program
/-!
# The command line

Takes a picture of the files that an action may need, performs the action on it, and puts what has
changed back. Everything else is decided by `Cli.execute`.
-/

namespace Qualification.Main

/-- How deep directories are looked into. -/
def depthLimit : Nat := 6

/-- Adds a file, or a directory with what is in it, to a picture of the files. -/
def addPlace : (depth : Nat) → Place → FileTree → IO FileTree
  | 0, _, files => return files
  | depth + 1, place, files => do
    let path := (← IO.currentDir) / Path.ofPlace place
    if ← path.isDir then
      let names := (← path.readDir).map fun e => e.fileName
      names.foldlM (fun files name => addPlace depth (place ++ [name]) files)
        ((files.makeDirsFrom? [] place).getD files)
    else if ← path.pathExists then
      try
        let bytes ← IO.FS.readBinFile path
        return files.addFiles [] [(Path.ofPlace place, bytes)]
      catch _ => return files
    else return files

/-- The variables of the process. -/
def processEnv : IO (Dict String) := do
  let text := Text.decodeLossy (← IO.FS.readBinFile "/proc/self/environ")
  return Dict.ofList ((Text.splitOn (Char.ofNat 0) text).filterMap fun entry =>
    (Text.cutAt? (· == '=') entry.toList).map fun (n, v) => (String.ofList n, String.ofList v))

/-- The time of day. -/
def now : IO Instant := do
  let modified := (← ((← IO.currentDir) / "/proc/self/stat").metadata).modified
  let ⟨seconds, nanos⟩ := modified
  return ⟨seconds, nanos.toNat⟩

/-- The paths that an action may look into. -/
def relevant (env : Dict String) (args : List String) : List String :=
  let home := ((env.get? "HOME").map fun h => Path.join h Settings.directoryName).toList
  let dirs := Settings.splitDirs (env.get? Settings.pluginPathVariable)
  let values := args.filterMap fun a => match Text.cutAt? (· == '=') a.toList with
    | some (_, v) => some (String.ofList v)
    | none => some a
  home ++ (env.get? Settings.homeVariable).toList ++ dirs ++ values

/-- A picture of the files that an action may need. -/
def picture (cwd : Place) (paths : List String) : IO FileTree := do
  let outer := (List.range cwd.length).map fun n =>
    cwd.take n ++ [Settings.directoryName, "config.yaml"]
  let files ← outer.foldlM (fun files p => addPlace depthLimit p files) FileTree.empty
  let files ← addPlace depthLimit cwd files
  paths.foldlM (fun files path => do
    match files.resolve? cwd path with
    | some place => addPlace depthLimit place files
    | none =>
      if Path.isAbsolute path then addPlace depthLimit (Path.names path) files else return files) files

/-- Puts what has changed back. -/
def putBack (before after : FileTree) : IO Unit := do
  for (place, entry) in after.entries do
    let path := (← IO.currentDir) / Path.ofPlace place
    match entry with
    | .directory => if !before.isDirectory place then IO.FS.createDirAll path
    | .file bytes =>
      if (before.read? place).map (·.data) != some bytes.data then IO.FS.writeBinFile path bytes
  for (place, entry) in before.entries do
    let path := (← IO.currentDir) / Path.ofPlace place
    match entry, after.entry? place with
    | .file _, none => IO.FS.removeFile path
    | _, _ => pure ()

/-- Performs what the arguments ask for. -/
def perform (args : List String) : IO UInt32 := do
  let env ← processEnv
  let cwd := Path.names (← IO.currentDir).toString
  let files ← picture cwd (relevant env args)
  let machine : Machine := ⟨files, cwd, env, ← now, ← IO.rand 0 Word.half64⟩
  let outcome := Cli.execute machine args
  putBack files outcome.machine.files
  IO.print outcome.stdout
  match outcome.failure with
  | some text => IO.eprintln (if outcome.exit == 2 then text else "Error: " ++ text)
  | none => pure ()
  return UInt32.ofNat outcome.exit.toNat

end Qualification.Main

/-- The command line. -/
def main (args : List String) : IO UInt32 := Qualification.Main.perform args
