import Qualification.Yaml.Node
import Qualification.Yaml.Scalar
import Qualification.Text.Cut
import Qualification.Text.Quoted
/-!
# Values of YAML

A value is a document with its scalars understood and its aliases followed. A mapping holds each key
once; keys are compared as values.

* `Document.value?`: the value of a document; at most 128 collections lie inside one another, and
  aliases are followed at most a hundred times as often as the document has parts;
* `Value.describe`: the text of a value for messages.
-/

namespace Qualification.Yaml

/-- A value. -/
inductive Value where
  | null
  | bool (b : Bool)
  | number (n : Number)
  | text (s : String)
  | sequence (items : List Value)
  | mapping (entries : List (Value × Value))
  | tagged (tag : String) (v : Value)
  deriving Inhabited

/-- A tag without the mark in front of it. -/
def bareTag (tag : String) : String :=
  match tag.toList with
  | '!' :: c :: rest => String.ofList (c :: rest)
  | _ => tag

namespace Value

mutual

/-- Whether two values are equal; of mappings the order does not count. -/
def same : Value → Value → Bool
  | null, null => true
  | bool a, bool b => a == b
  | number m, number n => m.same n
  | text s, text t => s == t
  | sequence xs, sequence ys => sameItems xs ys
  | mapping xs, mapping ys => xs.length == ys.length && allIn xs ys
  | tagged s x, tagged t y => bareTag s == bareTag t && same x y
  | _, _ => false

/-- Whether two sequences hold equal items. -/
def sameItems : List Value → List Value → Bool
  | [], [] => true
  | x :: xs, y :: ys => same x y && sameItems xs ys
  | _, _ => false

/-- Whether every entry has an equal one among others. -/
def allIn : List (Value × Value) → List (Value × Value) → Bool
  | [], _ => true
  | (k, v) :: es, fs => isIn k v fs && allIn es fs

/-- Whether an entry has an equal one among others. -/
def isIn (k v : Value) : List (Value × Value) → Bool
  | [] => false
  | (k', v') :: fs => (same k k' && same v v') || isIn k v fs

end

/-- The value under its tags. -/
def untagged : Value → Value
  | tagged _ v => untagged v
  | v => v

/-- The value of a text key. -/
def entry? (v : Value) (key : String) : Option Value :=
  match v.untagged with
  | mapping es => (es.find? fun e => match e.1 with
      | text s => s == key
      | _ => false).map Prod.snd
  | _ => none

mutual

/-- The text of a value for messages. -/
def describe : Value → String
  | null => "Null"
  | bool b => "Bool(" ++ toString b ++ ")"
  | number n => "Number(" ++ n.render ++ ")"
  | text s => "String(" ++ Text.quoted s ++ ")"
  | sequence xs => "Sequence [" ++ describeItems xs ++ "]"
  | mapping es => "Mapping \x7b" ++ describeEntries es ++ "\x7d"
  | tagged t v => "TaggedValue \x7b tag: !" ++ bareTag t ++ ", value: " ++ describe v ++ " \x7d"

def describeItems : List Value → String
  | [] => ""
  | [x] => describe x
  | x :: y :: rest => describe x ++ ", " ++ describeItems (y :: rest)

def describeEntries : List (Value × Value) → String
  | [] => ""
  | [(k, v)] => describeKey k ++ ": " ++ describe v
  | (k, v) :: e :: rest =>
    describeKey k ++ ": " ++ describe v ++ ", " ++ describeEntries (e :: rest)

/-- A scalar key without the name of its kind. -/
def describeKey : Value → String
  | bool b => toString b
  | number n => n.render
  | text s => Text.quoted s
  | null => "Null"
  | sequence xs => "Sequence [" ++ describeItems xs ++ "]"
  | mapping es => "Mapping \x7b" ++ describeEntries es ++ "\x7d"
  | tagged t v => "TaggedValue \x7b tag: !" ++ bareTag t ++ ", value: " ++ describe v ++ " \x7d"

end

end Value

/-! ## Understanding a document -/

def boolTag : String := "tag:yaml.org,2002:bool"
def intTag : String := "tag:yaml.org,2002:int"
def floatTag : String := "tag:yaml.org,2002:float"
def nullTag : String := "tag:yaml.org,2002:null"

/-- The value of an integer. -/
def integerValue (i : Int) : Value :=
  .number (if i < 0 then .negative i else .natural i.toNat)

/-- The value of a plain scalar without a tag; an integer that is too large has none. -/
def plainValue? (s : String) : Option Value :=
  if s.isEmpty || isNull s then some .null
  else match bool? s with
    | some b => some (.bool b)
    | none =>
      match integerText s with
      | .integer i => some (integerValue i)
      | .tooLarge => none
      | .none =>
        if zeroLed s.toList then some (.text s)
        else match real? s with
          | some x => some (.number (.real x))
          | none => some (.text s)

/-- Whether a tag is one of the user's: it begins with `!`. -/
def isLocalTag (tag : String) : Bool := tag.toList.head? == some '!'

/-- The value of a scalar with its tag, if it is not one of the user's. -/
def scalarValue? (tag : Option String) (s : String) (style : Style) : Option Value :=
  match tag with
  | some t =>
    if t == boolTag then (bool? s).map .bool
    else if t == intTag then
      match integerText s with
      | .integer i => some (integerValue i)
      | _ => none
    else if t == floatTag then (real? s).map fun x => .number (.real x)
    else if t == nullTag then (if isNull s then some .null else none)
    else some (.text s)
  | none => if style == .plain then plainValue? s else some (.text s)

namespace Document

/-- Follows an alias, if the budget allows it. An anchored node is never itself an alias. -/
def follow? (d : Document) (n : Node) (budget : Nat) : Option (Node × Nat) :=
  match n with
  | .alias id =>
    if budget = 0 then none else (d.anchors.lookup id).map fun m => (m, budget - 1)
  | n => some (n, budget)

/-- How often aliases may be followed. -/
def budget (d : Document) : Nat := 100 * d.size

/-- Puts a user's tag around a value. -/
def withTag (tag : Option String) (v : Value) : Value :=
  match tag with
  | some t => if isLocalTag t then .tagged t v else v
  | none => v

mutual

/-- The value of a node with at most `depth` collections inside one another. -/
def valueOf? (d : Document) : (depth : Nat) → Node → (budget : Nat) → Option (Value × Nat)
  | 0, n, b => do
    let (n, b) ← d.follow? n b
    match n with
    | .scalar tag s style =>
      let v ← if tag.any isLocalTag then
          (if style == .plain then plainValue? s else some (.text s))
        else scalarValue? tag s style
      pure (withTag tag v, b)
    | _ => none
  | depth + 1, n, b => do
    let (n, b) ← d.follow? n b
    match n with
    | .scalar tag s style =>
      let v ← if tag.any isLocalTag then
          (if style == .plain then plainValue? s else some (.text s))
        else scalarValue? tag s style
      pure (withTag tag v, b)
    | .sequence tag items =>
      let (vs, b) ← itemsOf? d depth items b
      pure (withTag tag (.sequence vs), b)
    | .mapping tag es =>
      let (vs, b) ← entriesOf? d depth es [] b
      pure (withTag tag (.mapping vs), b)
    | .alias _ => none

/-- The values of items. -/
def itemsOf? (d : Document) (depth : Nat) : List Node → (budget : Nat) →
    Option (List Value × Nat)
  | [], b => some ([], b)
  | n :: ns, b => do
    let (v, b) ← valueOf? d depth n b
    let (vs, b) ← itemsOf? d depth ns b
    pure (v :: vs, b)

/-- The values of entries after others; no key may occur twice. -/
def entriesOf? (d : Document) (depth : Nat) : List (Node × Node) → List (Value × Value) →
    (budget : Nat) → Option (List (Value × Value) × Nat)
  | [], done, b => some (done.reverse, b)
  | (k, v) :: es, done, b => do
    let (k, b) ← valueOf? d depth k b
    if done.any fun e => e.1.same k then none
    else
      let (v, b) ← valueOf? d depth v b
      entriesOf? d depth es ((k, v) :: done) b

end

/-- The depth of collections that is read. -/
def maxDepth : Nat := 128

/-- The value of a document; that of an empty stream is null. -/
def value? (d : Document) : Option Value :=
  match d.root with
  | none => some .null
  | some n => (d.valueOf? maxDepth n d.budget).map Prod.fst

end Document

/-- The value of a stream. -/
def value? (s : String) : Option Value := do (← document? s).value?

end Qualification.Yaml
