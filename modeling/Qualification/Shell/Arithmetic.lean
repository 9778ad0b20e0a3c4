import Qualification.Text.Cut
/-!
# Arithmetic of the shell

Expressions over integers with names, brackets, and the operators of comparison, addition and
multiplication.
-/

namespace Qualification.Shell.Arithmetic

/-- The binary operators, with how strongly they bind. -/
def operators : List (String × Nat) :=
  [("||", 1), ("&&", 2), ("==", 3), ("!=", 3), ("<=", 4), (">=", 4), ("<", 4), (">", 4), ("+", 5),
    ("-", 5), ("*", 6), ("/", 6), ("%", 6)]

def ofBool (b : Bool) : Int := if b then 1 else 0

/-- The result of an operator; there is none for a division by zero. -/
def result? (operator : String) (a b : Int) : Option Int :=
  if operator = "||" then some (ofBool (a != 0 || b != 0))
  else if operator = "&&" then some (ofBool (a != 0 && b != 0))
  else if operator = "==" then some (ofBool (a == b))
  else if operator = "!=" then some (ofBool (a != b))
  else if operator = "<=" then some (ofBool (a ≤ b))
  else if operator = ">=" then some (ofBool (b ≤ a))
  else if operator = "<" then some (ofBool (a < b))
  else if operator = ">" then some (ofBool (b < a))
  else if operator = "+" then some (a + b)
  else if operator = "-" then some (a - b)
  else if operator = "*" then some (a * b)
  else if b = 0 then none
  else if operator = "/" then some (Int.tdiv a b)
  else some (Int.tmod a b)

/-- The operator at the beginning of a text. -/
def operator? (cs : List Char) : Option (String × Nat × List Char) :=
  operators.findSome? fun (o, strength) =>
    (Text.dropPrefix? o.toList cs).map fun rest => (o, strength, rest)

mutual

/-- A number, a name, or an expression in brackets, with signs before it. -/
def primary? (value : List Char → Int) : (fuel : Nat) → List Char → Option (Int × List Char)
  | 0, _ => none
  | fuel + 1, cs => do
    match Text.dropBlanks cs with
    | '-' :: rest => (primary? value fuel rest).map fun (n, rest) => (-n, rest)
    | '+' :: rest => primary? value fuel rest
    | '!' :: rest => (primary? value fuel rest).map fun (n, rest) => (ofBool (n == 0), rest)
    | '(' :: rest =>
      let (n, rest) ← expression? value fuel 0 rest
      match Text.dropBlanks rest with
      | ')' :: rest => pure (n, rest)
      | _ => none
    | cs =>
      let digits := cs.takeWhile Char.isDigit
      if !digits.isEmpty then
        pure ((String.ofList digits).toNat?.getD 0, cs.drop digits.length)
      else
        let name := cs.takeWhile fun c => c.isAlphanum || c == '_'
        if name.isEmpty then none else pure (value name, cs.drop name.length)

/-- An expression whose operators bind more strongly than a bound. -/
def expression? (value : List Char → Int) : (fuel : Nat) → (bound : Nat) → List Char →
    Option (Int × List Char)
  | 0, _, _ => none
  | fuel + 1, bound, cs => do
    let (n, rest) ← primary? value fuel cs
    operations? value fuel bound n rest

/-- What follows an operand. -/
def operations? (value : List Char → Int) : (fuel : Nat) → (bound : Nat) → Int → List Char →
    Option (Int × List Char)
  | 0, _, _, _ => none
  | fuel + 1, bound, left, cs =>
    let cs := Text.dropBlanks cs
    match operator? cs with
    | none => some (left, cs)
    | some (o, strength, rest) =>
      if strength ≤ bound then some (left, cs)
      else do
        let (right, rest) ← expression? value fuel strength rest
        operations? value fuel bound (← result? o left right) rest

end

/-- The value of a whole expression. -/
def value? (value : List Char → Int) (cs : List Char) : Option Int :=
  if (Text.dropBlanks cs).isEmpty then some 0
  else do
    let (n, rest) ← expression? value (3 * cs.length + 3) 0 cs
    if (Text.dropBlanks rest).isEmpty then pure n else none

end Qualification.Shell.Arithmetic
