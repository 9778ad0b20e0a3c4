import Qualification.Text.Cut
/-!
# Section titles

A title is `[SKIP|STOP] <stage>[:<name>]`: the key of the stage that the section is addressed to, and
perhaps a name for this one of its sections. `SKIP` leaves the section out of a run, and `STOP` ends
the run where the section is reached.

* `Title.parse`, `Title.render`.
-/

namespace Qualification

/-- The word in front of a title. -/
inductive Qualifier where
  | skip | stop
  deriving DecidableEq, Repr

/-- The parts of a section title. -/
structure Title where
  qualifier : Option Qualifier
  /-- The key that the section is addressed to. -/
  stage : String
  /-- What stands after the colon. -/
  name : Option String
  deriving DecidableEq

namespace Qualifier

def word : Qualifier → String
  | skip => "SKIP"
  | stop => "STOP"

/-- The qualifier that a word is. -/
def ofWord? (w : List Char) : Option Qualifier :=
  if w = "SKIP".toList then some skip else if w = "STOP".toList then some stop else none

end Qualifier

namespace Title

open Text

/-- The qualifier in front of a trimmed title, and the rest: it ends at the first blank. -/
def splitQualifier (cs : List Char) : Option Qualifier × List Char :=
  match cutAt? isBlank cs with
  | some (w, rest) =>
    match Qualifier.ofWord? w with
    | some q => (some q, rest)
    | none => (none, cs)
  | none => (none, cs)

/-- The stage and the name, around the first colon. -/
def splitName (cs : List Char) : String × Option String :=
  match cutAt? (· == ':') cs with
  | some (stage, name) =>
    (String.ofList (trimChars stage), some (String.ofList (trimChars name)))
  | none => (String.ofList (trimChars cs), none)

/-- Reads a title; every text is one. -/
def parse (title : String) : Title :=
  let (qualifier, rest) := splitQualifier (trimChars title.toList)
  let (stage, name) := splitName rest
  ⟨qualifier, stage, name⟩

/-- Writes a title: a qualifier with a blank after it, the stage, and a colon with the name. -/
def render (t : Title) : String :=
  (match t.qualifier with
    | some q => q.word ++ " "
    | none => "") ++ t.stage ++
  (match t.name with
    | some n => ":" ++ n
    | none => "")

end Title

end Qualification
