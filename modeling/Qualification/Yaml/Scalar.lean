import Qualification.Decimal.Binary64
import Qualification.Word
/-!
# Plain scalars of YAML

What an unquoted scalar stands for: nothing, a truth value, a number, or else its text. An integer
has decimal digits without a leading zero, or digits of base 16, 8 or 2 after `0x`, `0o`, `0b`.
-/

namespace Qualification.Yaml

/-- A number: an integer of 64 bits, or a binary fraction. -/
inductive Number where
  | natural (n : Nat)
  /-- An integer below zero. -/
  | negative (i : Int)
  | real (x : Binary64)
  deriving DecidableEq, Inhabited

/-- The text of a number. -/
def Number.render : Number → String
  | natural n => toString n
  | negative i => toString i
  | real x => x.render

/-- Whether two numbers compare equal; integers and fractions never do. -/
def Number.same : Number → Number → Bool
  | natural m, natural n => m == n
  | negative i, negative j => i == j
  | real x, real y => x.same y
  | _, _ => false

def isNull (s : String) : Bool := s == "null" || s == "Null" || s == "NULL" || s == "~"

def bool? (s : String) : Option Bool :=
  if s == "true" || s == "True" || s == "TRUE" then some true
  else if s == "false" || s == "False" || s == "FALSE" then some false
  else none

/-- The value of a digit in bases up to 16. -/
def digitValue? (base : Nat) (c : Char) : Option Nat :=
  let v :=
    if '0' ≤ c ∧ c ≤ '9' then some (c.toNat - '0'.toNat)
    else if 'a' ≤ c ∧ c ≤ 'f' then some (c.toNat - 'a'.toNat + 10)
    else if 'A' ≤ c ∧ c ≤ 'F' then some (c.toNat - 'A'.toNat + 10)
    else none
  v.filter (· < base)

/-- The number of one or more digits. -/
def digits? (base : Nat) (cs : List Char) : Option Nat :=
  if cs.isEmpty then none
  else cs.foldlM (fun n c => (digitValue? base c).map fun d => n * base + d) 0

/-- The number of digits with the mark of their base before them. -/
def marked? : List Char → Option Nat
  | '0' :: 'x' :: cs => digits? 16 cs
  | '0' :: 'o' :: cs => digits? 8 cs
  | '0' :: 'b' :: cs => digits? 2 cs
  | _ => none

/-- Decimal digits after a leading zero, with or without a sign, are a text. -/
def zeroLed (cs : List Char) : Bool :=
  let ds := match cs with
    | '+' :: r | '-' :: r => r
    | r => r
  1 < ds.length && ds.head? == some '0' && ds.all Char.isDigit

/-- A number without a minus sign. -/
def unsigned? (cs : List Char) : Option Nat :=
  let body := match cs with
    | '+' :: r => r
    | r => r
  (marked? body).or (if zeroLed cs then none else digits? 10 body)

/-- A number after a minus sign. -/
def negated? : List Char → Option Nat
  | '-' :: r => (marked? r).or (if zeroLed ('-' :: r) then none else digits? 10 r)
  | _ => none

/-- What an integer text stands for: an integer, or one that is too large. -/
inductive IntegerText where
  | integer (i : Int)
  | tooLarge
  | none

/-- Reads an integer. Up to 128 bits an integer beyond 64 bits is one that is too large. -/
def integerText (s : String) : IntegerText :=
  let cs := s.toList
  match unsigned? cs with
  | some n => if n < Word.count64 then .integer n else if n < Word.count128 then .tooLarge else .none
  | none =>
    match negated? cs with
    | some n => if n ≤ Word.half64 then .integer (-n) else if n ≤ Word.half128 then .tooLarge else .none
    | none => .none

/-- A decimal fraction: digits with or without a point among them, and perhaps an exponent. -/
def decimal? (negative : Bool) (cs : List Char) : Option Binary64 :=
  let whole := cs.takeWhile Char.isDigit
  let rest := cs.dropWhile Char.isDigit
  let (fraction, rest) := match rest with
    | '.' :: r => (r.takeWhile Char.isDigit, r.dropWhile Char.isDigit)
    | r => ([], r)
  if whole.isEmpty && fraction.isEmpty then none
  else do
    let power : Int ← match rest with
      | [] => some 0
      | e :: r =>
        if e == 'e' || e == 'E' then
          match r with
          | '-' :: ds => (digits? 10 ds).map fun n => -(n : Int)
          | '+' :: ds => (digits? 10 ds).map fun n => (n : Int)
          | ds => (digits? 10 ds).map fun n => (n : Int)
        else none
    let n ← digits? 10 (whole ++ fraction)
    pure (Binary64.ofDecimal negative n (power - fraction.length))

/-- Reads a fraction. A decimal that is too large for the binary format is none. -/
def real? (s : String) : Option Binary64 :=
  let cs := s.toList
  let body := match cs with
    | '+' :: r => r
    | r => r
  if [".inf", ".Inf", ".INF"].contains (String.ofList body) then some (.infinite false)
  else if ["-.inf", "-.Inf", "-.INF"].contains s then some (.infinite true)
  else if [".nan", ".NaN", ".NAN"].contains s then some .notANumber
  else
    let x := match body with
      | '-' :: r => if cs.head? == some '+' then none else decimal? true r
      | '+' :: r => if cs.head? == some '+' then none else decimal? false r
      | r => decimal? false r
    x.filter fun x => match x with
      | .finite .. => true
      | _ => false

end Qualification.Yaml
