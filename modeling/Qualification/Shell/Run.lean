import Qualification.Shell.Arithmetic
import Qualification.Shell.Statement
import Qualification.Shell.Utility
import Qualification.Text.Utf8
/-!
# Running scripts

* `Fields`: the words that come of a word whose values are filled in;
* `Dest`: where what is written goes to;
* `run`, `runProgram`, `runScript`.
-/

namespace Qualification.Shell

/-! ## Fields -/

/-- The fields that are complete, and the one that is not. -/
structure Fields where
  done : List String
  current : Option (List Char)

namespace Fields

def empty : Fields := ⟨[], none⟩

/-- Adds a text to the current field. -/
def add (f : Fields) (cs : List Char) : Fields := { f with current := some (f.current.getD [] ++ cs) }

/-- Ends the current field. -/
def cut (f : Fields) : Fields :=
  match f.current with
  | some cs => ⟨f.done ++ [String.ofList cs], none⟩
  | none => f

/-- Adds a text that is cut at blanks. -/
def addSplit (f : Fields) (cs : List Char) : Fields :=
  cs.foldl (fun f c => if c = ' ' || c = '\t' || c = '\n' then f.cut else f.add [c]) f

/-- Adds texts of which each is a field. -/
def addEach (f : Fields) : List String → Fields
  | [] => f
  | [a] => f.add a.toList
  | a :: rest => (f.add a.toList).cut.addEach rest

def toList (f : Fields) : List String := f.cut.done

end Fields

/-! ## Streams -/

/-- Where what is written goes to. -/
inductive Dest where
  | stream (n : Nat)
  | file (p : Place)
  | nowhere

namespace Session

/-- Writes a piece of output to where it goes. -/
def deliver (s : Session) (dest : Dest) (bytes : ByteArray) : Session :=
  match dest with
  | .stream n => s.write n bytes
  | .file p => { s with files := (s.files.append? p bytes).getD s.files }
  | .nowhere => s

/-- Opens a file to be written, at its end or anew. -/
def openFile? (s : Session) (path : String) (atEnd : Bool) : Option (Place × Session) := do
  let p ← s.place? path
  let old := if atEnd then (s.files.read? p).getD ByteArray.empty else ByteArray.empty
  let files ← s.files.write? p old
  pure (p, { s with files })

end Session

/-- Opens what a redirection names. -/
def redirectTo (r : Redirect) (target : String) (table : List (Nat × Dest)) (s : Session) :
    Except String (List (Nat × Dest) × Session) :=
  if r.mark = "<" then
    match s.readFile? target with
    | some bytes => .ok (table, { s with input := bytes.data.toList })
    | none => .error s!"cannot open {target}: No such file"
  else if r.mark = "<&" then .ok (table, s)
  else if r.mark = ">&" then
    match target.toNat? with
    | some n => .ok ((r.stream, (table.lookup n).getD .nowhere) :: table, s)
    | none =>
      if target = "-" then .ok ((r.stream, .nowhere) :: table, s)
      else .error s!"Bad fd number"
  else if target = "/dev/null" then .ok ((r.stream, .nowhere) :: table, s)
  else if target = "/dev/stdout" then
    .ok ((r.stream, (table.lookup 1).getD .nowhere) :: table, s)
  else if target = "/dev/stderr" then
    .ok ((r.stream, (table.lookup 2).getD .nowhere) :: table, s)
  else
    match s.openFile? target (r.mark = ">>") with
    | some (p, s) => .ok ((r.stream, .file p) :: table, s)
    | none =>
      if (s.place? target).any s.files.isDirectory then .error s!"cannot create {target}: Is a directory"
      else .error s!"cannot create {target}: Directory nonexistent"

/-- The session around a part of a script that ran on its own. -/
def Session.afterPart (s part : Session) : Session :=
  { s with
    files := part.files, output := part.output, elapsed := part.elapsed, linger := part.linger
    status := part.status, input := part.input
    stop := match part.stop with
      | some .exit => none
      | other => other }

/-- The status that `exit` ends with. -/
def exitWith (args : List String) (s : Session) : Session :=
  match args with
  | [] => { s with stop := some .exit }
  | a :: _ =>
    match a.toNat? with
    | some n => { s.withStatus n with stop := some .exit }
    | none => { s.complainAs 2 s!"exit: Illegal number: {a}" with stop := some .exit }

/-- Sets variables that are given as `name=value`. -/
def setVariables (args : List String) (s : Session) : Session :=
  args.foldl (fun (s : Session) a =>
    match Text.cutAt? (· == '=') a.toList with
    | some (name, value) =>
      { s with env := s.env.insert (String.ofList name) (String.ofList value) }
    | none => s) (s.withStatus 0)

/-- Sets options of the shell, or its arguments. -/
def setOptions (args : List String) (s : Session) : Session :=
  let isOption (a : String) : Bool :=
    a != "--" && 1 < a.length && a.toList.head?.any "-+".toList.contains
  let strict := (args.takeWhile isOption).foldl (fun strict a =>
    if a.toList.contains 'e' then a.toList.head? == some '-' else strict) s.strict
  let s := { s with strict }.withStatus 0
  match args.dropWhile isOption with
  | [] => s
  | "--" :: rest => { s with args := rest }
  | rest => { s with args := rest }

/-- Goes to a directory: that of the user if none is given, the one before if it is `-`. -/
def changeDirectory (args : List String) (s : Session) : Session :=
  let target := match args with
    | [] => (s.env.get? "HOME").getD "."
    | "-" :: _ => (s.env.get? "OLDPWD").getD "."
    | path :: _ => path
  match (s.place? target).filter s.files.isDirectory with
  | some cwd =>
    let s' := { s with cwd, env := s.env.insert "OLDPWD" (Path.ofPlace s.cwd) }.noteDirectory
    (if args.head? == some "-" then s'.say (Path.ofPlace cwd ++ "\n") else s').withStatus 0
  | none => s.complainAs 2 s!"cd: can't cd to {target}"

/-- Reads a line of the input into variables. -/
def readLine (args : List String) (s : Session) : Session :=
  let names := args.filter fun a => a.toList.head? != some '-'
  let line := s.input.takeWhile (· != 10)
  let rest := s.input.drop line.length
  let words := Text.words (Text.decodeLossy ⟨line.toArray⟩)
  let rec fill : List String → List String → Session → Session
    | [], _, s => s
    | [n], ws, s => { s with env := s.env.insert n (Text.joinWith " " ws) }
    | n :: ns, ws, s => fill ns ws.tail { s with env := s.env.insert n (ws.headD "") }
  (fill names words { s with input := rest.tail }).withStatus (if rest.isEmpty then 1 else 0)

/-- The commands that change the shell itself. -/
def own? (name : String) : Option (List String → Session → Session) :=
  if name = ":" || name = "trap" || name = "umask" then some fun _ s => s.withStatus 0
  else if name = "set" then some setOptions
  else if name = "exit" || name = "return" then some exitWith
  else if name = "export" then some setVariables
  else if name = "unset" then some fun args s =>
    { s with env := args.foldl Dict.erase s.env }.withStatus 0
  else if name = "shift" then some fun _ s => { s with args := s.args.tail }.withStatus 0
  else if name = "read" then some readLine
  else if name = "wait" then some fun _ s =>
    { s with elapsed := max s.elapsed s.linger }.withStatus 0
  else if name = "cd" then some changeDirectory
  else none

/-! ## Running -/

mutual

/-- The value that a piece of a word stands for. -/
def pieceValue : (fuel : Nat) → Piece → Session → List Char × Session
  | 0, _, s => ([], { s with stop := some .endless })
  | fuel + 1, piece, s =>
    match piece with
    | .text cs _ => (cs, s)
    | .length name _ => (toString ((s.parameter? name).getD "").length |>.toList, s)
    | .parameter name none _ => (((s.parameter? name).getD "").toList, s)
    | .parameter name (some fallback) _ =>
      let value := (s.parameter? name).filter fun v => !(fallback.orEmpty && v == "")
      if fallback.mark = '+' then
        match value with
        | some _ => textValue fuel fallback.text s
        | none => ([], s)
      else
        match value with
        | some v => (v.toList, s)
        | none =>
          let (cs, s) := textValue fuel fallback.text s
          if fallback.mark = '=' then
            (cs, { s with env := s.env.insert (String.ofList name) (String.ofList cs) })
          else (cs, s)
    | .command script _ =>
      let part := runScript fuel script { s with output := [], input := [] }
      let text := (Text.decodeLossy (part.written 1)).toList
      let errors := part.output.filter fun o => o.1 != 1
      let s' := s.afterPart { part with output := s.output ++ errors, input := s.input }
      ((text.reverse.dropWhile (· == '\n')).reverse, s')
    | .arithmetic expression _ =>
      let (cs, s) := textValue fuel expression s
      let value (name : List Char) : Int :=
        (((s.parameter? name).bind number?)).getD 0
      match Arithmetic.value? value cs with
      | some n => ((toString n).toList, s)
      | none =>
        let s := s.complainAs 2 "arithmetic expression: expecting primary"
        ([], { s with stop := some .exit })

/-- The value of a text as if in double quotes. -/
def textValue : (fuel : Nat) → List Char → Session → List Char × Session
  | 0, _, s => ([], { s with stop := some .endless })
  | fuel + 1, cs, s =>
    match doubleQuoted? true (cs.length + 1) cs with
    | some (pieces, _) => joined fuel pieces s
    | none => (cs, s)

/-- The value of a word that is not cut. -/
def joined : (fuel : Nat) → List Piece → Session → List Char × Session
  | 0, _, s => ([], { s with stop := some .endless })
  | _, [], s => ([], s)
  | fuel + 1, p :: ps, s =>
    let (cs, s) := pieceValue fuel p s
    let (more, s) := joined fuel ps s
    (cs ++ more, s)

/-- The fields of a word. -/
def fieldsOf : (fuel : Nat) → List Piece → Fields → Session → Fields × Session
  | 0, _, f, s => (f, { s with stop := some .endless })
  | _, [], f, s => (f, s)
  | fuel + 1, p :: ps, f, s =>
    let (f, s) := match p with
      | .text cs _ => (f.add cs, s)
      | .parameter ['@'] none true => (f.addEach s.args, s)
      | .parameter _ _ quoted | .length _ quoted | .command _ quoted | .arithmetic _ quoted =>
        let (cs, s) := pieceValue fuel p s
        (if quoted then f.add cs else f.addSplit cs, s)
    fieldsOf fuel ps f s

/-- The fields of words. -/
def wordsOf : (fuel : Nat) → List (List Piece) → Session → List String × Session
  | 0, _, s => ([], { s with stop := some .endless })
  | _, [], s => ([], s)
  | fuel + 1, w :: ws, s =>
    let (f, s) := fieldsOf fuel w .empty s
    let (more, s) := wordsOf fuel ws s
    (f.toList ++ more, s)

/-- Opens redirections in order. -/
def openAll : (fuel : Nat) → List Redirect → List (Nat × Dest) → Session →
    Except Session (List (Nat × Dest) × Session)
  | 0, _, _, s => .error { s with stop := some .endless }
  | _, [], table, s => .ok (table, s)
  | fuel + 1, r :: rs, table, s =>
    let (target, s) := joined fuel r.target s
    match redirectTo r (String.ofList target) table s with
    | .ok (table, s) => openAll fuel rs table s
    | .error message => .error (s.complainAs 2 message)

/-- Makes assignments in order. -/
def assignAll : (fuel : Nat) → List (List Char × List Piece) → Session → Session
  | 0, _, s => { s with stop := some .endless }
  | _, [], s => s
  | fuel + 1, (name, pieces) :: rest, s =>
    let (cs, s) := joined fuel pieces s
    assignAll fuel rest
      { s with env := s.env.insert (String.ofList name) (String.ofList cs) }

/-- Runs a program by its name, of the shell or of the machine. -/
def runProgram : (fuel : Nat) → (shell : Bool) → (name : String) → List String → Session → Session
  | 0, _, _, _, s => { s with stop := some .endless }
  | fuel + 1, shell, name, args, s =>
    if ["sh", "dash", "bash"].contains name then
      let (options, operands) := letters args
      let inner := { s with strict := options.contains 'e', status := 0 }.noteDirectory
      if options.contains 'c' then
        match operands with
        | [] => s.complain 2 s!"{name}: 0: -c requires an argument"
        | script :: rest =>
          let part := runScript fuel script.toList
            { inner with name := rest.headD name, args := rest.tail }
          -- a signal that a shell sends to itself ends only that one
          s.afterPart { part with
            stop := if part.stop == some .killed && shell then none else part.stop }
      else
        match operands with
        | path :: rest =>
          match (s.readFile? path).bind Text.decode? with
          | some script =>
            s.afterPart (runScript fuel script.toList { inner with name := path, args := rest })
          | none => s.complain 2 s!"{name}: 0: cannot open {path}: No such file"
        | [] =>
          let script := (Text.decodeLossy ⟨s.input.toArray⟩).toList
          s.afterPart (runScript fuel script { inner with name, args := [], input := [] })
    else if name = "env" then
      let given := args.takeWhile fun a => a.toList.contains '='
      let s' := setVariables given s
      match args.drop given.length with
      | [] => printVariables [] s'
      | command :: rest =>
        match programName? s'.env command with
        | some program =>
          { runProgram fuel false program rest s' with env := s.env }
        | none => s.complain 127 s!"env: '{command}': No such file or directory"
    else
      match shared? shell name, external? name with
      | some f, _ => f args s
      | none, some f => f args s
      | none, none => s.complainAs 127 s!"{name}: not found"

/-- Runs a command of words. -/
def runWords : (fuel : Nat) → List String → Session → Session
  | 0, _, s => { s with stop := some .endless }
  | _, [], s => s
  | fuel + 1, name :: args, s =>
    if name = "eval" then
      runStatements fuel (Text.joinWith " " args).toList s
    else if name = "command" then runWords fuel args s
    else if name = "exec" then
      if args.isEmpty then s.withStatus 0
      else { runWords fuel args s with stop := some .exit }
    else
      match own? name, shared? true name with
      | some f, _ => f args s
      | none, some f => f args s
      | none, none =>
        match programName? s.env name with
        | some program =>
          if (external? program).isSome || ["sh", "dash", "bash", "env"].contains program then
            runProgram fuel true program args s
          else s.complainAs 127 s!"{name}: not found"
        | none =>
          if name.toList.contains '/' && s.hasPath name then
            s.complainAs 126 s!"{name}: Permission denied"
          else s.complainAs 127 s!"{name}: not found"

/-- Runs the statements of a text in this session. -/
def runStatements : (fuel : Nat) → List Char → Session → Session
  | 0, _, s => { s with stop := some .endless }
  | fuel + 1, script, s =>
    match Statement.parse script with
    | .ok statement => run fuel statement s
    | .error fault => { s.complainAs 2 fault.message with stop := some .exit }

/-- Runs a script on its own: only `exit` can end it before its end, and nothing but that. -/
def runScript : (fuel : Nat) → List Char → Session → Session
  | 0, _, s => { s with stop := some .endless }
  | fuel + 1, script, s =>
    let part := runStatements fuel script { s with stop := none }
    { part with stop := if part.stop == some .exit then none else part.stop }

/-- Runs a statement, unless the script has ended. -/
def run : (fuel : Nat) → Statement → Session → Session
  | 0, _, s => { s with stop := some .endless }
  | fuel + 1, statement, s =>
    if s.stop.isSome then s
    else
      match statement with
      | .nothing => s.withStatus 0
      | .simple assignments words =>
        let (words, s) := wordsOf fuel words (if words.isEmpty then s.withStatus 0 else s)
        if s.stop.isSome then s
        else if words.isEmpty then (assignAll fuel assignments s).heed
        else
          let before := s.env
          let s := runWords fuel words (assignAll fuel assignments s)
          (if assignments.isEmpty then s else { s with env := before }).heed
      | .redirected inner rs =>
        match openAll fuel rs [(1, .stream 1), (2, .stream 2)] s with
        | .error s => s.heed
        | .ok (table, s) =>
          let part := run fuel inner { s with output := [] }
          part.output.foldl (fun (s : Session) (n, bytes) =>
            s.deliver ((table.lookup n).getD (.stream n)) bytes) { part with output := s.output }
      | .pipe left right =>
        let part := run fuel left { s with output := [] }
        let errors := part.output.filter fun o => o.1 != 1
        let input := (part.written 1).data.toList
        let s' := s.afterPart { part with output := s.output ++ errors }
        if s'.stop.isSome then s'
        else
          let last := run fuel right { s' with input, elapsed := s.elapsed, env := s.env }
          { s'.afterPart last with elapsed := max s'.elapsed last.elapsed, input := s.input }.heed
      | .negated inner =>
        let s := runTested fuel inner s
        if s.stop.isSome then s else s.withStatus (if s.status = 0 then 1 else 0)
      | .andThen left right =>
        let s := runTested fuel left s
        if s.status = 0 then run fuel right s else s
      | .orElse left right =>
        let s := runTested fuel left s
        if s.status = 0 then s else run fuel right s
      | .sequence left right => run fuel right (run fuel left s)
      | .background inner =>
        let part := run fuel inner { s with input := [] }
        let s' := s.afterPart part
        { s' with elapsed := s.elapsed, linger := max s.linger part.elapsed, stop := none }.withStatus 0
      | .subshell inner => (s.afterPart (run fuel inner s)).heed
      | .branch condition yes no =>
        let s := runTested fuel condition s
        if s.stop.isSome then s
        else if s.status = 0 then run fuel yes s
        else run fuel no (s.withStatus 0)
      | .loop whileTrue condition body =>
        let s' := runTested fuel condition s
        if s'.stop.isSome then s'
        else if (s'.status = 0) = whileTrue then run fuel statement (run fuel body s')
        else s'.withStatus 0
      | .each name words body =>
        match words with
        | some ws =>
          let (values, s) := wordsOf fuel ws s
          runEach fuel name values body (s.withStatus 0)
        | none => runEach fuel name s.args body (s.withStatus 0)

/-- Runs a statement whose status is looked at, so that its failure does not end the script. -/
def runTested : (fuel : Nat) → Statement → Session → Session
  | 0, _, s => { s with stop := some .endless }
  | fuel + 1, statement, s =>
    { run fuel statement { s with strict := false } with strict := s.strict }

/-- Runs a statement for each value of a variable. -/
def runEach : (fuel : Nat) → (name : List Char) → List String → Statement → Session → Session
  | 0, _, _, _, s => { s with stop := some .endless }
  | _, _, [], _, s => s
  | fuel + 1, name, v :: vs, body, s =>
    if s.stop.isSome then s
    else
      runEach fuel name vs body
        (run fuel body { s with env := s.env.insert (String.ofList name) v })

end

end Qualification.Shell
