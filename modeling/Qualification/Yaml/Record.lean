import Qualification.Yaml.Value
/-!
# Records read from YAML

Records with known fields are read from a document directly: a text field takes a scalar as it is
written, and an absent mapping or sequence is an empty one. Where an entry was first read as a value,
only a text is a text.

* `Document.record?`, `Document.text?`, `Document.bool?`, `Document.nat?`, …;
* `Value.record?`, `Value.text?`, … for values.
-/

namespace Qualification.Yaml

/-- The given fields of a record: for each known name at most one. -/
structure Fields (α : Type) where
  given : List (String × α)

/-- What was given for a name. -/
def Fields.get? {α : Type} (f : Fields α) (name : String) : Option α := f.given.lookup name

/-- A field with a default. -/
def Fields.withDefault {α β : Type} (f : Fields α) (name : String) (default : β)
    (read : α → Option β) : Option β :=
  match f.get? name with
  | none => some default
  | some a => read a

/-- The known fields among entries, each at most once. -/
def Fields.ofList? {α : Type} (names : List String) (entries : List (String × α)) :
    Option (Fields α) :=
  let known := entries.filter fun e => names.contains e.1
  if (known.map Prod.fst).eraseDups.length = known.length then some ⟨known⟩ else none

namespace Document

/-- The node behind an alias. -/
def resolve? (d : Document) (n : Node) : Option Node := (d.follow? n 1).map Prod.fst

/-- The entries of a mapping; an absent node is an empty mapping. -/
def entries? (d : Document) (n : Node) : Option (List (Node × Node)) := do
  match ← d.resolve? n with
  | .mapping _ es => pure es
  | .scalar _ s style => if s.isEmpty && style == .plain then pure [] else none
  | _ => none

/-- The text of a scalar, as it is written. -/
def text? (d : Document) (n : Node) : Option String := do
  match ← d.resolve? n with
  | .scalar _ s _ => pure s
  | _ => none

/-- A record: every key is a scalar, and each known one occurs at most once. -/
def record? (d : Document) (names : List String) (n : Node) : Option (Fields Node) := do
  let es ← d.entries? n
  Fields.ofList? names (← es.mapM fun e => (d.text? e.1).map (·, e.2))

/-- The record of a whole document; that of an empty stream has no fields. -/
def rootRecord? (d : Document) (names : List String) : Option (Fields Node) :=
  match d.root with
  | none => some ⟨[]⟩
  | some n => d.record? names n

/-- The text of a scalar that may be a truth value or number: a plain one, or a literal one with the
right tag. -/
def literal? (d : Document) (expected : String) (n : Node) : Option String := do
  match ← d.resolve? n with
  | .scalar tag s style =>
    if style == .plain || (style == .literal && tag == some expected) then pure s else none
  | _ => none

/-- A truth value. -/
def bool? (d : Document) (n : Node) : Option Bool := do Yaml.bool? (← d.literal? boolTag n)

/-- A natural number of 64 bits. -/
def nat? (d : Document) (n : Node) : Option Nat := do
  (unsigned? (← d.literal? intTag n).toList).filter (· < Word.count64)

/-- Something that may be null. -/
def optional? {α : Type} (d : Document) (read : Node → Option α) (n : Node) :
    Option (Option α) := do
  match ← d.resolve? n with
  | .scalar tag s style =>
    if style != .plain then (read n).map some
    else if tag == some nullTag then (if isNull s then pure none else none)
    else if tag.isNone && (s.isEmpty || isNull s) then pure none
    else (read n).map some
  | _ => (read n).map some

/-- The texts of a sequence; an absent node is an empty sequence. -/
def texts? (d : Document) (n : Node) : Option (List String) := do
  match ← d.resolve? n with
  | .sequence _ items => items.mapM d.text?
  | .scalar _ s style => if s.isEmpty && style == .plain then pure [] else none
  | _ => none

/-- The entries of a mapping as values, at most `depth` collections inside one another. -/
def mapping? (d : Document) (depth : Nat) (n : Node) : Option (List (Value × Value)) := do
  match ← d.resolve? n with
  | .mapping _ es => (d.entriesOf? (depth - 1) es [] d.budget).map Prod.fst
  | .scalar _ s style => if s.isEmpty && style == .plain then pure [] else none
  | _ => none

end Document

namespace Value

/-- A text. -/
def text? (v : Value) : Option String :=
  match v.untagged with
  | text s => some s
  | _ => none

/-- An integer. -/
def int? (v : Value) : Option Int :=
  match v.untagged with
  | number (.natural n) => some n
  | number (.negative i) => some i
  | _ => none

/-- Something that may be null. -/
def optional? {α : Type} (read : Value → Option α) : Value → Option (Option α)
  | null => some none
  | v => (read v).map some

/-- The items of a sequence; null is an empty one. -/
def items? (v : Value) : Option (List Value) :=
  match v.untagged with
  | sequence xs => some xs
  | null => some []
  | _ => none

/-- The entries of a mapping with texts as keys; null is an empty one. -/
def entries? (v : Value) : Option (List (String × Value)) :=
  match v.untagged with
  | mapping es => es.mapM fun e => (text? e.1).map (·, e.2)
  | null => some []
  | _ => none

end Value

end Qualification.Yaml
