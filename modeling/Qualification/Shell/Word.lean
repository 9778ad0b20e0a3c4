import Qualification.Text.Cut
/-!
# Words of the shell

A script is a sequence of words and operators. A word is made of pieces: texts, and places where a
value is filled in, each inside quotes or outside of them.

* `Piece`, `Token`;
* `tokens?`: the tokens of a script, unless a quote or bracket is left open.
-/

namespace Qualification.Shell

/-- What is filled in for a parameter that has no value. -/
structure Fallback where
  /-- Whether an empty value counts as none. -/
  orEmpty : Bool
  /-- `-` for a default, `=` for one that is also set, `+` for something in place of a value. -/
  mark : Char
  text : List Char

/-- A piece of a word. -/
inductive Piece where
  | text (s : List Char) (quoted : Bool)
  | parameter (name : List Char) (fallback : Option Fallback) (quoted : Bool)
  | length (name : List Char) (quoted : Bool)
  | command (script : List Char) (quoted : Bool)
  | arithmetic (expression : List Char) (quoted : Bool)

/-- A token of a script. -/
inductive Token where
  | word (pieces : List Piece)
  | operator (mark : String)
  /-- The redirection of a stream. -/
  | redirect (stream : Nat) (mark : String)

/-- Whether a character can begin a name. -/
def beginsName (c : Char) : Bool := c.isAlpha || c == '_'

/-- Whether a character can be in a name. -/
def inName (c : Char) : Bool := c.isAlphanum || c == '_'

/-- Whether a character ends a word. -/
def endsWord (c : Char) : Bool := " \t\n;&|<>()".toList.contains c

/-- What stands before the bracket that closes one already open, and the rest. Brackets in quotes do
not count. -/
def enclosed (opening closing : Char) : (quote : Option Char) → (escaped : Bool) → (depth : Nat) →
    List Char → Option (List Char × List Char)
  | _, _, _, [] => none
  | quote, true, depth, c :: cs =>
    (enclosed opening closing quote false depth cs).map fun (a, b) => (c :: a, b)
  | some q, false, depth, c :: cs =>
    let quote := if c = q then none else some q
    let escaped := q = '"' && c = '\\'
    (enclosed opening closing quote escaped depth cs).map fun (a, b) => (c :: a, b)
  | none, false, depth, c :: cs =>
    if c = closing && depth = 0 then some ([], cs)
    else
      let quote := if c = '\'' || c = '"' then some c else none
      let depth := if c = closing then depth - 1 else if c = opening then depth + 1 else depth
      (enclosed opening closing quote (c = '\\') depth cs).map fun (a, b) => (c :: a, b)

/-- The name at the beginning of a text: an identifier, a digit or a special mark. -/
def parameterName (cs : List Char) : Option (List Char × List Char) :=
  match cs with
  | [] => none
  | c :: rest =>
    if beginsName c then some (cs.takeWhile inName, cs.dropWhile inName)
    else if c.isDigit || "?$#@*!-".toList.contains c then some ([c], rest)
    else none

/-- The parameter between braces. -/
def bracedParameter? (cs : List Char) (quoted : Bool) : Option Piece := do
  match cs with
  | '#' :: rest@(_ :: _) =>
    let (name, rest) ← parameterName rest
    if rest.isEmpty then pure (.length name quoted) else none
  | _ =>
    let (name, rest) ← parameterName cs
    match rest with
    | [] => pure (.parameter name none quoted)
    | ':' :: mark :: text =>
      if "-=+".toList.contains mark then pure (.parameter name (some ⟨true, mark, text⟩) quoted)
      else none
    | mark :: text =>
      if "-=+".toList.contains mark then pure (.parameter name (some ⟨false, mark, text⟩) quoted)
      else none

/-- What a dollar sign begins. -/
def dollar? (quoted : Bool) (cs : List Char) : Option (Piece × List Char) :=
  match cs with
  | '\x7b' :: rest => do
    let (inner, rest) ← enclosed '\x7b' '\x7d' none false 0 rest
    pure (← bracedParameter? inner quoted, rest)
  | '(' :: rest => do
    let (inner, rest) ← enclosed '(' ')' none false 0 rest
    match inner with
    | '(' :: more =>
      match Text.dropSuffix? [')'] more with
      | some expression => pure (.arithmetic expression quoted, rest)
      | none => pure (.command inner quoted, rest)
    | _ => pure (.command inner quoted, rest)
  | _ =>
    match parameterName cs with
    | some (name, rest) => some (.parameter name none quoted, rest)
    | none => some (.text ['$'] quoted, cs)

/-- The script between back quotes, and the rest. -/
def backQuoted? : List Char → Option (List Char × List Char)
  | [] => none
  | '\x60' :: cs => some ([], cs)
  | '\\' :: c :: cs =>
    let kept := if "\x60\\$".toList.contains c then [c] else ['\\', c]
    (backQuoted? cs).map fun (a, b) => (kept ++ a, b)
  | c :: cs => (backQuoted? cs).map fun (a, b) => (c :: a, b)

/-- The pieces up to a closing double quote, or to the end of the text. -/
def doubleQuoted? (open_ : Bool) : (fuel : Nat) → List Char → Option (List Piece × List Char)
  | 0, _ => none
  | _ + 1, [] => if open_ then some ([], []) else none
  | fuel + 1, c :: cs =>
    if c = '"' && !open_ then some ([], cs)
    else do
      let (pieces, rest) ←
        if c = '\\' then
          match cs with
          | '\n' :: rest => some ([], rest)
          | x :: rest =>
            if "$\x60\"\\".toList.contains x then some ([Piece.text [x] true], rest)
            else some ([Piece.text ['\\', x] true], rest)
          | [] => some ([Piece.text ['\\'] true], [])
        else if c = '$' then (dollar? true cs).map fun (p, rest) => ([p], rest)
        else if c = '\x60' then (backQuoted? cs).map fun (s, rest) => ([Piece.command s true], rest)
        else some ([Piece.text [c] true], cs)
      let (more, rest) ← doubleQuoted? open_ fuel rest
      pure (pieces ++ more, rest)

/-- The pieces of a word, and the rest. -/
def word? : (fuel : Nat) → List Char → Option (List Piece × List Char)
  | 0, _ => none
  | _ + 1, [] => some ([], [])
  | fuel + 1, c :: cs =>
    if endsWord c then some ([], c :: cs)
    else do
      let (pieces, rest) ←
        if c = '\\' then
          match cs with
          | '\n' :: rest => some ([], rest)
          | x :: rest => some ([Piece.text [x] true], rest)
          | [] => some ([Piece.text ['\\'] true], [])
        else if c = '\'' then
          (Text.cutAt? (· == '\'') cs).map fun (s, rest) => ([Piece.text s true], rest)
        else if c = '"' then
          (doubleQuoted? false fuel cs).map fun (ps, rest) => (Piece.text [] true :: ps, rest)
        else if c = '$' then (dollar? false cs).map fun (p, rest) => ([p], rest)
        else if c = '\x60' then (backQuoted? cs).map fun (s, rest) => ([Piece.command s false], rest)
        else some ([Piece.text [c] false], cs)
      let (more, rest) ← word? fuel rest
      pure (pieces ++ more, rest)

/-- The text of a word that is wholly unquoted text. -/
def plainText? (pieces : List Piece) : Option (List Char) :=
  (pieces.mapM fun p => match p with
    | Piece.text s false => some s
    | _ => none).map List.flatten

/-- An operator at the beginning of a text; a redirection may have the number of its stream. -/
def operator? (cs : List Char) : Option (Token × List Char) :=
  let marks := ["&&", "||", ";;", ">>", ">&", "<&", ">|", ";", "&", "|", "(", ")", "<", ">", "\n"]
  let found := marks.findSome? fun m => (Text.dropPrefix? m.toList cs).map (m, ·)
  found.map fun (m, rest) =>
    if m.toList.head? == some '<' then (.redirect 0 m, rest)
    else if m.toList.head? == some '>' then (.redirect 1 m, rest)
    else (.operator m, rest)

/-- The tokens of a script. -/
def tokensFrom? : (fuel : Nat) → List Char → Option (List Token)
  | 0, _ => none
  | _ + 1, [] => some []
  | fuel + 1, c :: cs =>
    if c = ' ' || c = '\t' then tokensFrom? fuel cs
    else if c = '\\' && cs.head? == some '\n' then tokensFrom? fuel cs.tail
    else if c = '#' then tokensFrom? fuel (cs.dropWhile (· != '\n'))
    else
      match operator? (c :: cs) with
      | some (t, rest) => (tokensFrom? fuel rest).map (t :: ·)
      | none => do
        let (pieces, rest) ← word? (cs.length + 2) (c :: cs)
        match plainText? pieces, operator? rest with
        | some [d], some (.redirect _ m, rest') =>
          if d.isDigit then
            (tokensFrom? fuel rest').map (Token.redirect (d.toNat - 48) m :: ·)
          else (tokensFrom? fuel rest).map (Token.word pieces :: ·)
        | _, _ => (tokensFrom? fuel rest).map (Token.word pieces :: ·)

/-- The tokens of a script. -/
def tokens? (script : List Char) : Option (List Token) := tokensFrom? (script.length + 1) script

end Qualification.Shell
