import Qualification.Json.Basic
/-!
# Reading JSON

`Json.parse?` reads one value with blanks around it. A field name must be a whole text; a text value
with half of a surrogate pair is read as `brokenText`.
-/

namespace Qualification.Json

/-- The blanks between tokens. -/
def isSpace (c : Char) : Bool := c == ' ' || c == '\t' || c == '\n' || c == '\r'

def skipSpace (cs : List Char) : List Char := cs.dropWhile isSpace

def hexValue? (c : Char) : Option Nat :=
  if '0' ≤ c ∧ c ≤ '9' then some (c.toNat - '0'.toNat)
  else if 'a' ≤ c ∧ c ≤ 'f' then some (c.toNat - 'a'.toNat + 10)
  else if 'A' ≤ c ∧ c ≤ 'F' then some (c.toNat - 'A'.toNat + 10)
  else none

/-- Four hexadecimal digits. -/
def hex4? : List Char → Option (Nat × List Char)
  | a :: b :: c :: d :: rest => do
    let a ← hexValue? a
    let b ← hexValue? b
    let c ← hexValue? c
    let d ← hexValue? d
    pure (((a * 16 + b) * 16 + c) * 16 + d, rest)
  | _ => none

/-- What an escape stands for: a character, or half of a surrogate pair. -/
def escape? : List Char → Option (Option Char × List Char)
  | 'u' :: cs => do
    let (n, rest) ← hex4? cs
    if 0xDC00 ≤ n ∧ n ≤ 0xDFFF then pure (none, rest)
    else if 0xD800 ≤ n ∧ n ≤ 0xDBFF then
      match rest with
      | '\\' :: 'u' :: cs' =>
        match hex4? cs' with
        | some (m, rest') =>
          if 0xDC00 ≤ m ∧ m ≤ 0xDFFF then
            pure (some (Char.ofNat ((n - 0xD800) * 0x400 + (m - 0xDC00) + 0x10000)), rest')
          else pure (none, rest)
        | none => none
      | _ => pure (none, rest)
    else pure (some (Char.ofNat n), rest)
  | '"' :: cs => some (some '"', cs)
  | '\\' :: cs => some (some '\\', cs)
  | '/' :: cs => some (some '/', cs)
  | 'b' :: cs => some (some (Char.ofNat 8), cs)
  | 'f' :: cs => some (some (Char.ofNat 12), cs)
  | 'n' :: cs => some (some '\n', cs)
  | 'r' :: cs => some (some '\r', cs)
  | 't' :: cs => some (some '\t', cs)
  | _ => none

/-- The characters up to the closing quote; `none` among them for half of a surrogate pair. -/
def textBody : (fuel : Nat) → List Char → Option (List (Option Char) × List Char)
  | 0, _ => none
  | fuel + 1, cs =>
    match cs with
    | [] => none
    | '"' :: rest => some ([], rest)
    | '\\' :: rest => do
      let (c, rest) ← escape? rest
      let (more, rest) ← textBody fuel rest
      pure (c :: more, rest)
    | c :: rest =>
      if c.toNat < 32 then none
      else do
        let (more, rest) ← textBody fuel rest
        pure (some c :: more, rest)

/-- A text after its opening quote; inside, `none` if it is broken. -/
def text? (cs : List Char) : Option (Option String × List Char) := do
  let (body, rest) ← textBody (cs.length + 1) cs
  pure ((body.mapM id).map String.ofList, rest)

/-- The decimal value of digits. -/
def natOfDigits (ds : List Char) : Nat := ds.foldl (fun n d => n * 10 + (d.toNat - 48)) 0

/-- A number; its kind is decided by how it is written and by its size. -/
def number? (cs : List Char) : Option (Json × List Char) :=
  let (negative, cs') := match cs with
    | '-' :: r => (true, r)
    | _ => (false, cs)
  let whole := cs'.takeWhile Char.isDigit
  let rest := cs'.dropWhile Char.isDigit
  if whole.isEmpty || (whole.head? == some '0' && 1 < whole.length) then none
  else do
    let (fraction, rest) ← match rest with
      | '.' :: r =>
        let ds := r.takeWhile Char.isDigit
        if ds.isEmpty then none else some ('.' :: ds, r.dropWhile Char.isDigit)
      | _ => some ([], rest)
    let (power, rest) ← match rest with
      | e :: r =>
        if e == 'e' || e == 'E' then
          let (sign, r) := match r with
            | '+' :: r' => (['+'], r')
            | '-' :: r' => (['-'], r')
            | _ => ([], r)
          let ds := r.takeWhile Char.isDigit
          if ds.isEmpty then none else some (e :: sign ++ ds, r.dropWhile Char.isDigit)
        else some ([], rest)
      | [] => some ([], rest)
    let sign := if negative then ['-'] else []
    let written := String.ofList (sign ++ whole ++ fraction ++ power)
    let n := natOfDigits whole
    if !fraction.isEmpty || !power.isEmpty then pure (real written, rest)
    else if negative then
      if n == 0 || Word.half64 < n then pure (real written, rest) else pure (int (-(n : Int)), rest)
    else if n < Word.count64 then pure (int n, rest)
    else pure (real written, rest)

mutual

/-- A value, without blanks before it. -/
def value? : (fuel : Nat) → List Char → Option (Json × List Char)
  | 0, _ => none
  | fuel + 1, cs =>
    match cs with
    | 'n' :: 'u' :: 'l' :: 'l' :: rest => some (null, rest)
    | 't' :: 'r' :: 'u' :: 'e' :: rest => some (bool true, rest)
    | 'f' :: 'a' :: 'l' :: 's' :: 'e' :: rest => some (bool false, rest)
    | '"' :: rest => do
      let (s, rest) ← text? rest
      pure (match s with | some s => text s | none => brokenText, rest)
    | '[' :: rest =>
      match skipSpace rest with
      | ']' :: rest => some (array [], rest)
      | rest => do
        let (items, rest) ← items? fuel rest
        pure (array items, rest)
    | '\x7b' :: rest =>
      match skipSpace rest with
      | '\x7d' :: rest => some (object [], rest)
      | rest => do
        let (fields, rest) ← fields? fuel rest
        pure (object fields, rest)
    | cs => number? cs

/-- The items of an array that is not empty, to its closing bracket. -/
def items? : (fuel : Nat) → List Char → Option (List Json × List Char)
  | 0, _ => none
  | fuel + 1, cs => do
    let (j, rest) ← value? fuel (skipSpace cs)
    match skipSpace rest with
    | ',' :: rest =>
      let (more, rest) ← items? fuel rest
      pure (j :: more, rest)
    | ']' :: rest => pure ([j], rest)
    | _ => none

/-- The fields of an object that is not empty, to its closing brace. -/
def fields? : (fuel : Nat) → List Char → Option (List (String × Json) × List Char)
  | 0, _ => none
  | fuel + 1, cs =>
    match skipSpace cs with
    | '"' :: rest => do
      let (name, rest) ← text? rest
      let name ← name
      match skipSpace rest with
      | ':' :: rest =>
        let (j, rest) ← value? fuel (skipSpace rest)
        match skipSpace rest with
        | ',' :: rest =>
          let (more, rest) ← fields? fuel rest
          pure ((name, j) :: more, rest)
        | '\x7d' :: rest => pure ([(name, j)], rest)
        | _ => none
      | _ => none
    | _ => none

end

/-- Reads a text that holds one value. -/
def parse? (s : String) : Option Json := do
  let cs := s.toList
  let (j, rest) ← value? (cs.length + 1) (skipSpace cs)
  if (skipSpace rest).isEmpty then pure j else none

end Qualification.Json
