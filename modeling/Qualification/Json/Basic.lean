import Qualification.Word
/-!
# JSON values

* `Json`: values as they are written, with the fields of an object in their order;
* `Json.asText?`, `Json.asInt?`, … read one kind of value;
* `Json.fields?` reads a record with known field names from an object or from an array.
-/

namespace Qualification

/-- A JSON value. -/
inductive Json where
  | null
  | bool (b : Bool)
  /-- An integer of the range of 64-bit words, signed or not. -/
  | int (i : Int)
  /-- Any other number, as written. -/
  | real (written : String)
  | text (s : String)
  /-- A text with half of a surrogate pair; it can be skipped but not used. -/
  | brokenText
  | array (items : List Json)
  | object (fields : List (String × Json))
  deriving Inhabited

namespace Json

def asText? : Json → Option String
  | text s => some s
  | _ => none

def asBool? : Json → Option Bool
  | bool b => some b
  | _ => none

def asInt? : Json → Option Int
  | int i => some i
  | _ => none

/-- A natural number of 64 bits. -/
def asNat? (j : Json) : Option Nat := (j.asInt?.filter Word.isUInt64).map Int.toNat

/-- A signed integer of 32 bits. -/
def asInt32? (j : Json) : Option Int := j.asInt?.filter Word.isInt32

/-- A signed integer of 64 bits. -/
def asInt64? (j : Json) : Option Int := j.asInt?.filter Word.isInt64

def asArray? : Json → Option (List Json)
  | array items => some items
  | _ => none

def asObject? : Json → Option (List (String × Json))
  | object fields => some fields
  | _ => none

/-- `null` as nothing, anything else as read by `read`. -/
def asOption? {α : Type} (read : Json → Option α) : Json → Option (Option α)
  | null => some none
  | j => (read j).map some

/-- The last field of a name. -/
def field? (j : Json) (name : String) : Option Json :=
  match j with
  | object fields => (fields.filter fun f => f.1 == name).getLast?.map Prod.snd
  | _ => none

/-- The fields of a record, as far as they were given. -/
structure Record where
  names : List String
  given : List (Option Json)
  /-- Whether the record was an array, whose fields are known by position. -/
  positional : Bool

/-- Reads a record with the given field names: an object, in which each of them occurs at most once
and others are skipped, or an array with at most as many items. -/
def record? (names : List String) : Json → Option Record
  | object fields =>
    let given := names.map fun n => fields.filterMap fun f => if f.1 == n then some f.2 else none
    if given.all (·.length ≤ 1) then some ⟨names, given.map List.head?, false⟩ else none
  | array items =>
    if items.length ≤ names.length then
      some ⟨names, items.map some ++ List.replicate (names.length - items.length) none, true⟩
    else none
  | _ => none

namespace Record

/-- What was given for a name. -/
def get? (r : Record) (name : String) : Option Json := ((r.names.zip r.given).lookup name).join

/-- A field that must be given. -/
def required {α : Type} (r : Record) (name : String) (read : Json → Option α) : Option α :=
  (r.get? name).bind read

/-- A field with a default. -/
def withDefault {α : Type} (r : Record) (name : String) (default : α) (read : Json → Option α) :
    Option α :=
  match r.get? name with
  | none => some default
  | some j => read j

/-- A field that may be `null`, and may be missing unless fields are known by position. -/
def optional {α : Type} (r : Record) (name : String) (read : Json → Option α) :
    Option (Option α) :=
  match r.get? name with
  | none => if r.positional then none else some none
  | some j => j.asOption? read

end Record

end Json

end Qualification
