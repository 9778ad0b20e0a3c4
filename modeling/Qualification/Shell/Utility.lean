import Qualification.Shell.Format
import Qualification.Shell.Session
/-!
# Utilities of the machine

The programs that commands can name, each a change of a session. A few of them also belong to the
shell itself, where their options and messages differ.

* `utility?`: the utility of a name;
* `isUtility`, `programName?`: whether there is a program.
-/

namespace Qualification.Shell

namespace Session

/-- The place of a path. -/
def place? (s : Session) (path : String) : Option Place := s.files.resolve? s.cwd path

/-- The bytes of a file; the empty device has none. -/
def readFile? (s : Session) (path : String) : Option ByteArray :=
  if path = "/dev/null" then some ByteArray.empty else (s.place? path).bind s.files.read?

/-- Whether something stands at a path. -/
def hasPath (s : Session) (path : String) : Bool :=
  path == "/dev/null" || ((s.place? path).bind s.files.entry?).isSome

end Session

open Text (joinWith)

/-- The options at the beginning of arguments, as letters, and the operands. -/
def letters : List String → List Char × List String
  | [] => ([], [])
  | a :: rest =>
    if a = "--" then ([], rest)
    else
      match a.toList with
      | '-' :: c :: cs =>
        let (more, operands) := letters rest
        (c :: cs ++ more, operands)
      | _ => ([], a :: rest)

/-! ## Output -/

/-- Writes the arguments; in the shell, escapes are understood. -/
def echo (shell : Bool) (args : List String) (s : Session) : Session :=
  let isOption (a : String) : Bool :=
    if shell then a == "-n"
    else match a.toList with
      | '-' :: cs => !cs.isEmpty && cs.all "neE".toList.contains
      | _ => false
  let options := if shell then (args.take 1).filter isOption else args.takeWhile isOption
  let text := (joinWith " " (args.drop options.length)).toList
  let marks := options.flatMap String.toList
  let understands := shell || marks.contains 'e'
  let (bytes, goes) := if understands then unescape true (text.length + 1) text
    else (bytesOf text, true)
  let bytes := if goes && !marks.contains 'n' then bytes ++ [10] else bytes
  (s.write 1 ⟨bytes.toArray⟩).withStatus 0

/-- Writes arguments by a format. -/
def printf (shell : Bool) (args : List String) (s : Session) : Session :=
  let args := if args.head? == some "--" then args.tail else args
  match args with
  | [] =>
    if shell then s.complainAs 2 "printf: usage: printf format [arg ...]"
    else s.complain 1 "printf: missing operand\nTry 'printf --help' for more information."
  | format :: args =>
    let f := formatAll format.toList (args.length + 1) args
    let s := s.write 1 ⟨f.bytes.toArray⟩
    match f.wrong with
    | [] => s.withStatus 0
    | wrong => wrong.foldl (fun (s : Session) a =>
        if shell then s.complainAs 1 s!"printf: {a}: expected numeric value"
        else s.complain 1 s!"printf: '{a}': expected a numeric value") s

/-! ## Conditions -/

/-- A comparison of two numbers. -/
def compare? (operator : String) (a b : Int) : Option Bool :=
  if operator = "-eq" then some (a == b)
  else if operator = "-ne" then some (a != b)
  else if operator = "-lt" then some (a < b)
  else if operator = "-le" then some (a ≤ b)
  else if operator = "-gt" then some (b < a)
  else if operator = "-ge" then some (b ≤ a)
  else none

/-- The value of a condition, unless it is none. -/
def condition? (s : Session) : List String → Option Bool
  | [] => some false
  | [a] => some (a != "")
  | ["!", a] => some (a == "")
  | [o, a] =>
    let place := s.place? a
    if o = "-n" then some (a != "")
    else if o = "-z" then some (a == "")
    else if o = "-e" || o = "-r" || o = "-w" then some (s.hasPath a)
    else if o = "-f" then some (place.any s.files.isFile)
    else if o = "-d" || o = "-x" then some (place.any s.files.isDirectory)
    else if o = "-s" then some (((place.bind s.files.read?).map ByteArray.size).any (0 < ·))
    else none
  | ["!", a, b] => (condition? s [a, b]).map not
  | [a, o, b] =>
    if o = "=" then some (a == b)
    else if o = "!=" then some (a != b)
    else if o = "-a" then some (a != "" && b != "")
    else if o = "-o" then some (a != "" || b != "")
    else do compare? o (← a.toInt?) (← b.toInt?)
  | ["!", a, o, b] => (condition? s [a, o, b]).map not
  | _ => none
termination_by args => args.length

/-- Ends with the value of a condition. -/
def test (name : String) (args : List String) (s : Session) : Session :=
  match condition? s args with
  | some b => s.withStatus (if b then 0 else 1)
  | none => s.complainAs 2 s!"{name}: unexpected operator"

/-! ## Files -/

/-- Writes the contents of files one after the other. -/
def cat (args : List String) (s : Session) : Session :=
  let files := if args.isEmpty then ["-"] else args
  files.foldl (fun (s : Session) f =>
    if f = "-" then { s.write 1 ⟨s.input.toArray⟩ with input := [] }
    else match s.readFile? f with
      | some bytes => s.write 1 bytes
      | none =>
        if (s.place? f).any s.files.isDirectory then s.complain 1 s!"cat: {f}: Is a directory"
        else s.complain 1 s!"cat: {f}: No such file or directory") (s.withStatus 0)

/-- Makes empty files where there are none. -/
def touch (args : List String) (s : Session) : Session :=
  args.foldl (fun (s : Session) f =>
    if s.hasPath f then s
    else match (s.place? f).bind fun p => s.files.write? p ByteArray.empty with
      | some files => { s with files }
      | none => s.complain 1 s!"touch: cannot touch '{f}': No such file or directory")
    (s.withStatus 0)

/-- Makes directories. -/
def mkdir (args : List String) (s : Session) : Session :=
  let (options, paths) := letters args
  paths.foldl (fun (s : Session) d =>
    if options.contains 'p' then
      match s.files.makeDirs? s.cwd d with
      | some files => { s with files }
      | none => s.complain 1 s!"mkdir: cannot create directory '{d}': Not a directory"
    else if s.hasPath d then s.complain 1 s!"mkdir: cannot create directory '{d}': File exists"
    else match (s.place? d).filter fun p => s.files.isDirectory p.dropLast with
      | some p => { s with files := s.files.put p .directory }
      | none => s.complain 1 s!"mkdir: cannot create directory '{d}': No such file or directory")
    (s.withStatus 0)

/-- Removes files and directories. -/
def rm (args : List String) (s : Session) : Session :=
  let (options, paths) := letters args
  paths.foldl (fun (s : Session) f =>
    match (s.place? f).filter fun p => (s.files.entry? p).isSome with
    | none =>
      if options.contains 'f' then s
      else s.complain 1 s!"rm: cannot remove '{f}': No such file or directory"
    | some p =>
      if s.files.isDirectory p && !options.contains 'r' && !options.contains 'R' then
        s.complain 1 s!"rm: cannot remove '{f}': Is a directory"
      else { s with files := s.files.remove p })
    (s.withStatus 0)

/-- Lists the names in directories. -/
def ls (args : List String) (s : Session) : Session :=
  let (options, paths) := letters args
  let paths := if paths.isEmpty then ["."] else paths
  paths.foldl (fun (s : Session) d =>
    match (s.place? d).filter fun p => (s.files.entry? p).isSome with
    | none => s.complain 2 s!"ls: cannot access '{d}': No such file or directory"
    | some p =>
      if s.files.isFile p then s.say (d ++ "\n")
      else
        let names := (s.files.children p).filter fun n =>
          options.contains 'a' || options.contains 'A' || n.toList.head? != some '.'
        s.say (String.join ((names.mergeSort (· ≤ ·)).map (· ++ "\n"))))
    (s.withStatus 0)

/-- Copies a file. -/
def cp (args : List String) (s : Session) : Session :=
  match (letters args).2 with
  | [source, target] =>
    match s.readFile? source with
    | none => s.complain 1 s!"cp: cannot stat '{source}': No such file or directory"
    | some bytes =>
      let target? := (s.place? target).map fun p =>
        if s.files.isDirectory p then p ++ [(Path.names source).getLast?.getD source] else p
      match target?.bind fun p => s.files.write? p bytes with
      | some files => { s with files }.withStatus 0
      | none =>
        s.complain 1 s!"cp: cannot create regular file '{target}': No such file or directory"
  | _ => s.complain 1 "cp: missing file operand\nTry 'cp --help' for more information."

/-- Copies the input to the output and to files. -/
def tee (args : List String) (s : Session) : Session :=
  let (options, paths) := letters args
  let bytes : ByteArray := ⟨s.input.toArray⟩
  let s := { s.write 1 bytes with input := [] }
  paths.foldl (fun (s : Session) f =>
    let old := if options.contains 'a' then (s.readFile? f).getD ByteArray.empty else ByteArray.empty
    match (s.place? f).bind fun p => s.files.write? p (old ++ bytes) with
    | some files => { s with files }
    | none => s.complain 1 s!"tee: {f}: No such file or directory") (s.withStatus 0)

/-! ## Lines -/

/-- The text of the input, or of a file. -/
def inputOf (name : String) (paths : List String) (s : Session) : Session × List UInt8 :=
  match paths with
  | [] => ({ s with input := [] }, s.input)
  | f :: _ =>
    match s.readFile? f with
    | some bytes => (s, bytes.data.toList)
    | none => (s.complain 1 s!"{name}: {f}: No such file or directory", [])

/-- The lines of bytes, each with its line feed. -/
def bytesLines (bytes : List UInt8) : List (List UInt8) :=
  let parts := Text.splitAt (· == 10) bytes
  parts.dropLast.map (· ++ [10]) ++ (parts.getLast?.filter fun l => !l.isEmpty).toList

/-- An amount of lines or of bytes. -/
inductive Amount where
  | lines (n : Nat)
  | bytes (n : Nat)

/-- The amount that an option asks for, and the operands. -/
def amount : List String → Amount × List String
  | "-n" :: n :: rest => (.lines (n.toNat?.getD 10), rest)
  | "-c" :: n :: rest => (.bytes (n.toNat?.getD 10), rest)
  | a :: rest =>
    match a.toList with
    | '-' :: 'n' :: ds => (.lines ((String.ofList ds).toNat?.getD 10), rest)
    | '-' :: 'c' :: ds => (.bytes ((String.ofList ds).toNat?.getD 10), rest)
    | '-' :: ds => (.lines ((String.ofList ds).toNat?.getD 10), rest)
    | _ => (.lines 10, a :: rest)
  | [] => (.lines 10, [])

/-- Writes the first or the last lines or bytes. -/
def ends (name : String) (args : List String) (s : Session) : Session :=
  let (limit, paths) := amount args
  let kept {α : Type} (n : Nat) (xs : List α) : List α :=
    if name = "head" then xs.take n else xs.drop (xs.length - n)
  match limit, paths with
  | .bytes n, ["/dev/zero"] => (s.write 1 ⟨Array.replicate n 0⟩).withStatus 0
  | _, _ =>
    let (s, bytes) := inputOf name paths (s.withStatus 0)
    let bytes := match limit with
      | .lines n => (kept n (bytesLines bytes)).flatten
      | .bytes n => kept n bytes
    s.write 1 ⟨bytes.toArray⟩

/-- The bytes that a set of characters stands for. -/
def byteSet (text : String) : List UInt8 :=
  let classes := [("[:upper:]", "ABCDEFGHIJKLMNOPQRSTUVWXYZ"),
    ("[:lower:]", "abcdefghijklmnopqrstuvwxyz"), ("[:digit:]", "0123456789"), ("[:space:]", "\t\n\x0b\x0c\r ")]
  match classes.lookup text with
  | some members => bytesOf members.toList
  | none =>
    let rec ranges : List UInt8 → List UInt8
      | a :: 45 :: b :: rest =>
        (List.range (b.toNat + 1 - a.toNat)).map (fun i => UInt8.ofNat (a.toNat + i)) ++ ranges rest
      | a :: rest => a :: ranges rest
      | [] => []
    ranges (unescapeOctal (text.length + 1) text.toList)
where
  /-- The bytes of a text whose octal numbers need no additional zero. -/
  unescapeOctal : (fuel : Nat) → List Char → List UInt8
    | 0, _ => []
    | _, [] => []
    | fuel + 1, '\\' :: cs =>
      let (bytes, rest) := escape false cs
      bytes.getD [] ++ unescapeOctal fuel rest
    | fuel + 1, c :: cs => bytesOf [c] ++ unescapeOctal fuel cs

/-- Replaces or removes bytes of the input. -/
def tr (args : List String) (s : Session) : Session :=
  let (options, sets) := letters args
  let input := s.input
  let s := { s with input := [] }.withStatus 0
  match sets with
  | [set] =>
    let set := byteSet set
    if options.contains 'd' then
      s.write 1 ⟨(input.filter fun b => !set.contains b).toArray⟩
    else s.complain 1 "tr: missing operand"
  | [set, by_] =>
    let set := byteSet set
    let new := byteSet by_
    let table := set.zip (new ++ List.replicate (set.length - new.length) (new.getLast?.getD 0))
    s.write 1 ⟨(input.map fun b => (table.reverse.lookup b).getD b).toArray⟩
  | _ => s.complain 1 "tr: missing operand\nTry 'tr --help' for more information."

/-- Whether a line comes before another or is equal to it. -/
def lineLe : List UInt8 → List UInt8 → Bool
  | [], _ => true
  | _ :: _, [] => false
  | a :: as, b :: bs => a < b || (a == b && lineLe as bs)

/-- Writes lines in order. -/
def sort (args : List String) (s : Session) : Session :=
  let (options, paths) := letters args
  let (s, bytes) := inputOf "sort" paths (s.withStatus 0)
  let parts := Text.splitAt (· == 10) bytes
  let lines := parts.dropLast ++ (parts.getLast?.filter fun l => !l.isEmpty).toList
  let lines := lines.mergeSort lineLe
  let lines := if options.contains 'u' then lines.eraseReps else lines
  let lines := if options.contains 'r' then lines.reverse else lines
  s.write 1 ⟨(lines.flatMap (· ++ [10])).toArray⟩

/-- Counts lines or bytes. -/
def wc (args : List String) (s : Session) : Session :=
  let (options, paths) := letters args
  let (s, bytes) := inputOf "wc" paths (s.withStatus 0)
  let count := if options.contains 'c' then bytes.length else bytes.count 10
  s.say (joinWith " " (toString count :: paths.take 1) ++ "\n")

/-- Writes numbers in order. -/
def seq (args : List String) (s : Session) : Session :=
  let bounds := match args.filterMap String.toNat? with
    | [last] => some (1, last)
    | [first, last] => some (first, last)
    | _ => none
  match bounds with
  | none => s.complain 1 "seq: missing operand\nTry 'seq --help' for more information."
  | some (first, last) =>
    let numbers := (List.range (last + 1 - first)).map (· + first)
    (s.say (String.join (numbers.map fun n => toString n ++ "\n"))).withStatus 0

/-! ## Time and signals -/

/-- A number of seconds with a fraction and a unit, in milliseconds. -/
def milliseconds? (text : String) : Option Nat := do
  let cs := text.toList
  let (cs, factor) := match cs.getLast? with
    | some 's' => (cs.dropLast, 1)
    | some 'm' => (cs.dropLast, 60)
    | some 'h' => (cs.dropLast, 3600)
    | some 'd' => (cs.dropLast, 86400)
    | _ => (cs, 1)
  let whole := cs.takeWhile Char.isDigit
  let rest := cs.dropWhile Char.isDigit
  let fraction ← match rest with
    | [] => some []
    | '.' :: ds => if ds.all Char.isDigit then some ds else none
    | _ => none
  if whole.isEmpty && fraction.isEmpty then none
  else
    let millis := (String.ofList ('0' :: whole)).toNat?.getD 0 * 1000 +
      ((String.ofList ((fraction ++ ['0', '0', '0']).take 3)).toNat?.getD 0)
    pure (millis * factor)

/-- Lets time pass. -/
def sleep (args : List String) (s : Session) : Session :=
  let help := "Try 'sleep --help' for more information."
  if args.isEmpty then s.complain 1 s!"sleep: missing operand\n{help}"
  else if args.contains "infinity" then { s with stop := some .endless }
  else
    match args.find? fun a => (milliseconds? a).isNone with
    | some wrong => s.complain 1 s!"sleep: invalid time interval '{wrong}'\n{help}"
    | none =>
      let total := (args.filterMap milliseconds?).foldl (· + ·) 0
      { s with elapsed := s.elapsed + total }.withStatus 0

/-- Signals that do not end a process. -/
def isHarmless (signal : String) : Bool :=
  ["0", "CHLD", "SIGCHLD", "17", "CONT", "SIGCONT", "18", "URG", "SIGURG", "23", "WINCH",
    "SIGWINCH", "28"].contains signal

/-- The number of a signal that ends a process. -/
def signalNumber (signal : String) : Nat :=
  let names := [("HUP", 1), ("INT", 2), ("QUIT", 3), ("ABRT", 6), ("KILL", 9), ("USR1", 10),
    ("SEGV", 11), ("USR2", 12), ("PIPE", 13), ("ALRM", 14), ("TERM", 15)]
  match signal.toNat? with
  | some n => n
  | none =>
    let bare := (Text.dropPrefix? "SIG".toList signal.toList).getD signal.toList
    (names.lookup (String.ofList bare)).getD 15

/-- Sends a signal, by default the one that ends a process. -/
def kill (args : List String) (s : Session) : Session :=
  let (signal, targets) := match args with
    | "-s" :: name :: rest => (name, rest)
    | a :: rest =>
      match a.toList with
      | '-' :: cs => (String.ofList cs, rest)
      | _ => ("TERM", a :: rest)
    | [] => ("TERM", [])
  match targets with
  | [] => s.complainAs 2 "kill: usage: kill [-s sigspec | -signum | -sigspec] [pid | job]..."
  | ["4242"] => if isHarmless signal then s.withStatus 0 
    else { s with stop := some .killed }.withStatus (128 + signalNumber signal)
  | _ => s.complainAs 1 "kill: No such process"

/-! ## Variables and names -/

/-- Writes the variables, or the values of some. -/
def printVariables (args : List String) (s : Session) : Session :=
  if args.isEmpty then
    (s.say (String.join (s.env.toList.map fun e => e.1 ++ "=" ++ e.2 ++ "\n"))).withStatus 0
  else
    let found := args.filterMap s.env.get?
    (s.say (String.join (found.map (· ++ "\n")))).withStatus
      (if found.length = args.length then 0 else 1)

/-- The last name of a path, without a suffix. -/
def basename (args : List String) (s : Session) : Session :=
  match args with
  | [] => s.complain 1 "basename: missing operand\nTry 'basename --help' for more information."
  | path :: rest =>
    let name := (Path.names path).getLast?.getD "/"
    let suffix := rest.headD ""
    let kept := match Text.dropSuffix? suffix.toList name.toList with
      | some front => if front.isEmpty then name else String.ofList front
      | none => name
    (s.say (kept ++ "\n")).withStatus 0

/-- A path without its last name. -/
def dirname (args : List String) (s : Session) : Session :=
  match args with
  | [] => s.complain 1 "dirname: missing operand\nTry 'dirname --help' for more information."
  | path :: _ =>
    let front := (Text.splitOn '/' path).dropLast
    let text := if front.isEmpty then "."
      else if front == [""] then "/" else joinWith "/" front
    (s.say (text ++ "\n")).withStatus 0

/-! ## Programs -/

/-- The utilities that the shell has of its own. -/
def shared? (shell : Bool) (name : String) : Option (List String → Session → Session) :=
  if name = "echo" then some (echo shell)
  else if name = "printf" then some (printf shell)
  else if name = "true" then some fun _ s => s.withStatus 0
  else if name = "false" then some fun _ s => s.withStatus 1
  else if name = "pwd" then some fun _ s => (s.say (Path.ofPlace s.cwd ++ "\n")).withStatus 0
  else if name = "test" then some (test "test")
  else if name = "[" then some fun args s =>
    if args.getLast? == some "]" then test "[" args.dropLast s else s.complainAs 2 "[: missing ]"
  else if name = "kill" then some kill
  else none

/-- The utilities that are programs only. -/
def external? (name : String) : Option (List String → Session → Session) :=
  if name = "cat" then some cat
  else if name = "sleep" then some sleep
  else if name = "touch" then some touch
  else if name = "mkdir" then some mkdir
  else if name = "rm" then some rm
  else if name = "ls" then some ls
  else if name = "cp" then some cp
  else if name = "tee" then some tee
  else if name = "head" || name = "tail" then some (ends name)
  else if name = "wc" then some wc
  else if name = "tr" then some tr
  else if name = "sort" then some sort
  else if name = "seq" then some seq
  else if name = "printenv" then some printVariables
  else if name = "basename" then some basename
  else if name = "dirname" then some dirname
  else none

/-- The directories of programs. -/
def programDirs : List String := ["/bin", "/usr/bin"]

/-- The name of the program that a command names, if it can be found by the `PATH` variable. -/
def programName? (env : Dict String) (command : String) : Option String :=
  if command.toList.contains '/' then
    programDirs.findSome? fun d =>
      (Text.dropPrefix? (d ++ "/").toList command.toList).map String.ofList
  else
    let path := (env.get? "PATH").getD "/bin:/usr/bin"
    if (Text.splitOn ':' path).any programDirs.contains then some command else none

end Qualification.Shell
