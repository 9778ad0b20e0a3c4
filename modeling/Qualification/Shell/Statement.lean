import Qualification.Shell.Word
/-!
# Statements of the shell

* `Statement`: commands, and how they are put together;
* `SyntaxFault`: what is wrong with a script;
* `Statement.parse`: reads a script.
-/

namespace Qualification.Shell

/-- Where a stream of a command goes to or comes from. -/
structure Redirect where
  stream : Nat
  mark : String
  target : List Piece

/-- A statement. -/
inductive Statement where
  | nothing
  | simple (assignments : List (List Char × List Piece)) (words : List (List Piece))
  | redirected (s : Statement) (redirects : List Redirect)
  | pipe (left right : Statement)
  | negated (s : Statement)
  | andThen (left right : Statement)
  | orElse (left right : Statement)
  | sequence (left right : Statement)
  | background (s : Statement)
  | subshell (s : Statement)
  | branch (condition yes no : Statement)
  /-- Repeats a body as long as a condition succeeds, or fails. -/
  | loop (whileTrue : Bool) (condition body : Statement)
  /-- Runs a body for each word, or for each argument of the script. -/
  | each (name : List Char) (words : Option (List (List Piece))) (body : Statement)

/-- The reserved word that a token is. -/
def reserved? : Token → Option String
  | .word pieces => (plainText? pieces).bind fun cs =>
    ["if", "then", "elif", "else", "fi", "while", "until", "for", "in", "do", "done", "\x7b", "\x7d",
      "!", "case", "esac"].find? fun w => w.toList == cs
  | _ => none

/-- Whether a token separates statements. -/
def isSeparator : Token → Bool
  | .operator m => m == ";" || m == "\n" || m == "&"
  | _ => false

def isNewline : Token → Bool
  | .operator m => m == "\n"
  | _ => false

/-- What is wrong with a script. -/
inductive SyntaxFault where
  | unclosedQuote
  /-- A token that cannot stand where it is, or the end of the script, and the word that could. -/
  | unexpected (found : Option Token) (expecting : Option String)

/-- A token as a message names it. -/
def Token.name (t : Token) : String :=
  match reserved? t, t with
  | some w, _ => "\"" ++ w ++ "\""
  | none, .word _ => "word"
  | none, .redirect _ _ => "redirection"
  | none, .operator m => if m = "\n" then "newline" else "\"" ++ m ++ "\""

/-- The message of a fault. -/
def SyntaxFault.message : SyntaxFault → String
  | .unclosedQuote => "Syntax error: Unterminated quoted string"
  | .unexpected found expecting =>
    let what := (found.map Token.name).getD "end of file"
    let instead := (expecting.map fun w => " (expecting \"" ++ w ++ "\")").getD ""
    "Syntax error: " ++ what ++ " unexpected" ++ instead

/-- The fault of the token at the beginning. -/
def unexpected {α : Type} (ts : List Token) (expecting : Option String) : Except SyntaxFault α :=
  .error (.unexpected ts.head? expecting)

/-- Whether a list of statements ends before some tokens. -/
def endsList : List Token → Bool
  | [] => true
  | .operator m :: _ => m == ")" || m == ";;"
  | t :: _ => match reserved? t with
    | some w => ["\x7d", "then", "elif", "else", "fi", "do", "done", "esac"].contains w
    | none => false

/-- The tokens after one that must be there. -/
def expect (word : String) : List Token → Except SyntaxFault (List Token)
  | t :: ts => if reserved? t == some word then .ok ts else unexpected (t :: ts) (some word)
  | [] => unexpected [] (some word)

/-- The assignment that a word is. -/
def assignment? (pieces : List Piece) : Option (List Char × List Piece) :=
  let front := pieces.takeWhile fun p => match p with
    | .text _ false => true
    | _ => false
  match plainText? front with
  | some cs =>
    match Text.cutAt? (· == '=') cs with
    | some (name, value) =>
      if name.head?.any beginsName && name.all inName then
        some (name, .text value false :: pieces.drop front.length)
      else none
    | none => none
  | none => none

/-- Redirections at the beginning of some tokens. -/
def redirects : List Token → List Redirect × List Token
  | .redirect n m :: .word w :: ts =>
    let (more, ts) := redirects ts
    (⟨n, m, w⟩ :: more, ts)
  | ts => ([], ts)

/-- The words and redirections of a simple command. -/
def simpleParts : List Token → List (List Piece) × List Redirect × List Token
  | .redirect n m :: .word w :: ts =>
    let (words, more, ts) := simpleParts ts
    (words, ⟨n, m, w⟩ :: more, ts)
  | .word w :: ts =>
    let (words, more, ts) := simpleParts ts
    (w :: words, more, ts)
  | ts => ([], [], ts)

/-- A statement with redirections, if it has any. -/
def withRedirects (s : Statement) : List Redirect → Statement
  | [] => s
  | rs => .redirected s rs

/-- A simple command. -/
def simple (ts : List Token) : Except SyntaxFault (Statement × List Token) :=
  let (words, rs, rest) := simpleParts ts
  if words.isEmpty && rs.isEmpty then unexpected ts none
  else
    let assignments := (words.takeWhile fun w => (assignment? w).isSome).filterMap assignment?
    .ok (withRedirects (.simple assignments (words.drop assignments.length)) rs, rest)

mutual

/-- Statements up to the end of a list. -/
def list : (fuel : Nat) → List Token → Except SyntaxFault (Statement × List Token)
  | 0, ts => unexpected ts none
  | fuel + 1, ts => do
    let ts := ts.dropWhile isNewline
    if endsList ts then pure (.nothing, ts)
    else
      let (first, ts) ← andOr fuel ts
      match ts with
      | .operator "&" :: ts =>
        let (rest, ts) ← list fuel ts
        pure (.sequence (.background first) rest, ts)
      | t :: ts' =>
        if isSeparator t then
          let (rest, ts) ← list fuel ts'
          pure (match rest with | .nothing => first | _ => .sequence first rest, ts)
        else if endsList (t :: ts') then pure (first, t :: ts')
        else unexpected (t :: ts') none
      | [] => pure (first, [])

/-- Pipelines joined by `&&` and `||`. -/
def andOr : (fuel : Nat) → List Token → Except SyntaxFault (Statement × List Token)
  | 0, ts => unexpected ts none
  | fuel + 1, ts => do
    let (first, ts) ← pipeline fuel ts
    andOrRest fuel first ts

/-- What follows a pipeline. -/
def andOrRest : (fuel : Nat) → Statement → List Token → Except SyntaxFault (Statement × List Token)
  | 0, _, ts => unexpected ts none
  | fuel + 1, left, ts =>
    match ts with
    | .operator "&&" :: ts => do
      let (right, ts) ← pipeline fuel (ts.dropWhile isNewline)
      andOrRest fuel (.andThen left right) ts
    | .operator "||" :: ts => do
      let (right, ts) ← pipeline fuel (ts.dropWhile isNewline)
      andOrRest fuel (.orElse left right) ts
    | ts => .ok (left, ts)

/-- Commands joined by `|`. -/
def pipeline : (fuel : Nat) → List Token → Except SyntaxFault (Statement × List Token)
  | 0, ts => unexpected ts none
  | fuel + 1, ts => do
    match ts with
    | [] => unexpected [] none
    | t :: rest =>
      if reserved? t == some "!" then
        let (s, rest) ← pipeline fuel rest
        pure (.negated s, rest)
      else
        let (first, ts) ← command fuel ts
        match ts with
        | .operator "|" :: ts =>
          let (right, ts) ← pipeline fuel (ts.dropWhile isNewline)
          pure (.pipe first right, ts)
        | ts => pure (first, ts)

/-- One command. -/
def command : (fuel : Nat) → List Token → Except SyntaxFault (Statement × List Token)
  | 0, ts => unexpected ts none
  | fuel + 1, ts => do
    match ts with
    | [] => unexpected [] none
    | .operator "(" :: rest =>
      let (s, rest) ← body fuel rest
      match rest with
      | .operator ")" :: rest =>
        let (rs, rest) := redirects rest
        pure (withRedirects (.subshell s) rs, rest)
      | _ => unexpected rest (some ")")
    | t :: rest =>
      match reserved? t with
      | none => simple ts
      | some word =>
        let (s, rest) ←
          if word = "\x7b" then do
            let (s, rest) ← body fuel rest
            pure (s, ← expect "\x7d" rest)
          else if word = "if" then branch fuel rest
          else if word = "while" || word = "until" then do
            let (condition, rest) ← body fuel rest
            let (inner, rest) ← body fuel (← expect "do" rest)
            pure (.loop (word = "while") condition inner, ← expect "done" rest)
          else if word = "for" then each fuel rest
          else unexpected ts none
        let (rs, rest) := redirects rest
        pure (withRedirects s rs, rest)

/-- Statements of which there must be one. -/
def body : (fuel : Nat) → List Token → Except SyntaxFault (Statement × List Token)
  | 0, ts => unexpected ts none
  | fuel + 1, ts => do
    let (s, rest) ← list fuel ts
    match s, rest with
    | .nothing, _ :: _ => unexpected rest none
    | s, rest => pure (s, rest)

/-- What follows `if`. -/
def branch : (fuel : Nat) → List Token → Except SyntaxFault (Statement × List Token)
  | 0, ts => unexpected ts none
  | fuel + 1, ts => do
    let (condition, ts) ← body fuel ts
    let (yes, ts) ← body fuel (← expect "then" ts)
    let next := ts.head?.bind reserved?
    if next = some "elif" then
      let (no, rest) ← branch fuel ts.tail
      pure (.branch condition yes no, rest)
    else if next = some "else" then
      let (no, rest) ← body fuel ts.tail
      pure (.branch condition yes no, ← expect "fi" rest)
    else pure (.branch condition yes .nothing, ← expect "fi" ts)

/-- What follows `for`. -/
def each : (fuel : Nat) → List Token → Except SyntaxFault (Statement × List Token)
  | 0, ts => unexpected ts none
  | fuel + 1, ts => do
    match ts with
    | .word w :: rest =>
      match plainText? w with
      | none => unexpected ts none
      | some name =>
        let rest := rest.dropWhile isNewline
        let (words, rest) := match expect "in" rest with
          | .ok rest =>
            let (words, _, rest) := simpleParts rest
            (some words, rest)
          | .error _ => (none, rest)
        let rest := rest.dropWhile isSeparator
        let (inner, rest) ← body fuel (← expect "do" rest)
        pure (.each name words inner, ← expect "done" rest)
    | _ => unexpected ts none

end

/-- Reads a script. -/
def Statement.parse (script : List Char) : Except SyntaxFault Statement := do
  match tokens? script with
  | none => .error .unclosedQuote
  | some ts =>
    let (s, rest) ← list (8 * ts.length + 8) ts
    if rest.isEmpty then pure s else unexpected rest none

end Qualification.Shell
