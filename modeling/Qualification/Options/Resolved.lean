import Qualification.Options.Spec
import Qualification.Text.Cut
/-!
# Option values of one invocation

A declared option has the value of the section where there is one, and else its default. Keys of the
section that are not declared are passed through, except the reserved ones, which are dropped.

* `resolve`, and the readers `Resolved.get?`, `nonempty?`, `bool`, `int?`, `list`.
-/

namespace Qualification

/-- The effective values of the declared options, and the keys that are passed through. -/
structure Resolved where
  values : Dict String
  passthrough : Dict String

/-- Keys of a section that say how it is run. -/
def reservedKeys : List String := ["section", "plugin", "parent"]

/-- The values for some overrides. -/
def resolve (spec : OptionSpec) (overrides : Dict String) : Resolved where
  values := spec.map fun name d => (overrides.get? name).getD d.default
  passthrough := overrides.filter fun k _ => !spec.contains k && !reservedKeys.contains k

/-- A decimal integer of 64 bits, with or without a sign. -/
def parseInt? (s : String) : Option Int :=
  let (negative, ds) := match s.toList with
    | '-' :: r => (true, r)
    | '+' :: r => (false, r)
    | r => (false, r)
  if ds.isEmpty || !ds.all Char.isDigit then none
  else
    let n := ds.foldl (fun (n : Nat) d => n * 10 + (d.toNat - 48)) 0
    let i : Int := if negative then -(n : Int) else n
    if Word.isInt64 i then some i else none

/-- The items of a list value: cut at commas, trimmed, without empty ones; brackets around the whole
are dropped. -/
def parseList (raw : String) : List String :=
  let cs := Text.trimChars raw.toList
  let inner := match Text.dropPrefix? ['['] cs with
    | some rest => (Text.dropSuffix? [']'] rest).getD cs
    | none => cs
  ((Text.splitAt (· == ',') inner).map Text.trimChars).filter (!·.isEmpty) |>.map String.ofList

namespace Resolved

/-- The value of a declared option. -/
def get? (r : Resolved) (name : String) : Option String := r.values.get? name

/-- A value that holds more than blanks. -/
def nonempty? (r : Resolved) (name : String) : Option String :=
  (r.get? name).filter fun v => !Text.isBlankText v

/-- Whether a value is a word for yes. -/
def bool (r : Resolved) (name : String) : Bool :=
  (r.get? name).any fun v =>
    ["true", "1", "t", "y", "yes"].contains (Text.lowerAscii (Text.trim v))

/-- A value as an integer. -/
def int? (r : Resolved) (name : String) : Option Int :=
  (r.get? name).bind fun v => parseInt? (Text.trim v)

/-- A value as a list: `[a, b]` or `a, b`. -/
def list (r : Resolved) (name : String) : List String :=
  match r.get? name with
  | none => []
  | some raw => parseList raw

end Resolved

end Qualification
