import Qualification.Dict
import Qualification.Text.Cut
/-!
# Scripts that change the environment

A module command prints shell statements; those that set or unset variables are changes of the
environment, and all others are skipped.

* `statements` cuts a script at semicolons and line feeds outside of quotes;
* `changes` reads the changes; `Environment.apply` makes them.
-/

namespace Qualification

/-- A change of one variable. -/
inductive EnvChange where
  | set (name value : String)
  | unset (name : String)
  deriving DecidableEq

/-- The variables that commands see on top of the inherited ones. -/
abbrev Environment := Dict String

namespace Environment

/-- The environment after a change. -/
def change (env : Environment) : EnvChange → Environment
  | .set name value => env.insert name value
  | .unset name => env.erase name

/-- The environment after changes, in order. -/
def apply (env : Environment) (cs : List EnvChange) : Environment := cs.foldl change env

end Environment

namespace EnvScript

/-- Whether a character is a quote. -/
def isQuote (c : Char) : Bool := c == '\'' || c == '"'

/-- Whether a character separates statements. -/
def isSeparator (c : Char) : Bool := c == ';' || c == '\n'

/-- The open quote after a character. -/
def quoteAfter (quote : Option Char) (c : Char) : Option Char :=
  match quote with
  | some q => if c = q then none else some q
  | none => if isQuote c then some c else none

/-- The statements of a script that begins inside a quote or outside of any. -/
def statementsFrom (quote : Option Char) : List Char → List (List Char)
  | [] => [[]]
  | c :: cs =>
    if quote.isNone && isSeparator c then [] :: statementsFrom none cs
    else match statementsFrom (quoteAfter quote c) cs with
      | [] => [[c]]
      | s :: ss => (c :: s) :: ss

/-- The statements of a script. -/
def statements (script : List Char) : List (List Char) := statementsFrom none script

/-- Whether a text is a name of variables: an ASCII letter or underscore, then also digits. -/
def isIdentifier : List Char → Bool
  | [] => false
  | c :: cs => (c.isAlpha || c == '_') && cs.all fun c => c.isAlphanum || c == '_'

/-- A value without the quotes around it. -/
def unquote (cs : List Char) : List Char :=
  let within? (q : Char) : Option (List Char) :=
    match Text.dropPrefix? [q] cs with
    | some rest => Text.dropSuffix? [q] rest
    | none => none
  ((within? '\'').or (within? '"')).getD cs

open Text

/-- The changes of one statement. -/
def statementChanges (statement : List Char) : List EnvChange :=
  let s := trimChars statement
  match dropPrefix? "unset ".toList s with
  | some names =>
    ((wordsFrom [] names).filter fun n => n.head? != some '-').map fun n =>
      .unset (String.ofList n)
  | none =>
    let assignment := trimChars ((dropPrefix? "export ".toList s).getD s)
    match cutAt? (· == '=') assignment with
    | some (name, value) =>
      if isIdentifier name then
        [.set (String.ofList name) (String.ofList (unquote (trimChars value)))]
      else []
    | none => []

/-- The changes of a script, in order. -/
def changes (script : String) : List EnvChange :=
  (statements script.toList).flatMap statementChanges

end EnvScript

end Qualification
