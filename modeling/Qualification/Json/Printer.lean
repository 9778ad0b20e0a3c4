import Qualification.Json.Basic
/-!
# Writing JSON

Compact text has no blanks; pretty text puts every item on a line of its own, two blanks deeper
than what it belongs to. In texts the quote, the backslash and the control characters are escaped,
the latter with a short escape where there is one and else by four hexadecimal digits.
-/

namespace Qualification.Json

/-- A hexadecimal digit in lower case. -/
def hexDigit (n : Nat) : Char := "0123456789abcdef".toList.getD n '0'

/-- How a character is written in a text. -/
def escapeChar (c : Char) : List Char :=
  if c = '"' then ['\\', '"']
  else if c = '\\' then ['\\', '\\']
  else if c = '\n' then ['\\', 'n']
  else if c = '\r' then ['\\', 'r']
  else if c = '\t' then ['\\', 't']
  else if c.toNat = 8 then ['\\', 'b']
  else if c.toNat = 12 then ['\\', 'f']
  else if c.toNat < 32 then
    ['\\', 'u', '0', '0', hexDigit (c.toNat / 16), hexDigit (c.toNat % 16)]
  else [c]

/-- A text in quotes. -/
def quoteChars (cs : List Char) : List Char := '"' :: cs.flatMap escapeChar ++ ['"']

/-- An integer in decimal. -/
def intChars : Int → List Char
  | .ofNat n => Nat.toDigits 10 n
  | .negSucc n => '-' :: Nat.toDigits 10 (n + 1)

mutual

/-- The compact text of a value. -/
def compactChars : Json → List Char
  | null => "null".toList
  | bool true => "true".toList
  | bool false => "false".toList
  | int i => intChars i
  | real s => s.toList
  | text s => quoteChars s.toList
  | brokenText => ['"', '"']
  | array items => '[' :: compactItems items ++ [']']
  | object fields => '\x7b' :: compactFields fields ++ ['\x7d']

/-- Items with commas between them. -/
def compactItems : List Json → List Char
  | [] => []
  | [j] => compactChars j
  | j :: k :: rest => compactChars j ++ ',' :: compactItems (k :: rest)

/-- Fields with commas between them. -/
def compactFields : List (String × Json) → List Char
  | [] => []
  | [(n, j)] => quoteChars n.toList ++ ':' :: compactChars j
  | (n, j) :: f :: rest =>
    quoteChars n.toList ++ ':' :: compactChars j ++ ',' :: compactFields (f :: rest)

end

/-- The compact text of a value. -/
def compact (j : Json) : String := String.ofList (compactChars j)

/-- A line break and the blanks of a depth. -/
def newLine (depth : Nat) : List Char := '\n' :: List.replicate (2 * depth) ' '

mutual

/-- The pretty text of a value at a depth. -/
def prettyChars (depth : Nat) : Json → List Char
  | array [] => ['[', ']']
  | object [] => ['\x7b', '\x7d']
  | array (j :: rest) => '[' :: prettyItems (depth + 1) (j :: rest) ++ newLine depth ++ [']']
  | object (f :: rest) =>
    '\x7b' :: prettyFields (depth + 1) (f :: rest) ++ newLine depth ++ ['\x7d']
  | null => "null".toList
  | bool b => compactChars (bool b)
  | int i => intChars i
  | real s => s.toList
  | text s => quoteChars s.toList
  | brokenText => ['"', '"']

/-- Items, each on a line of its own. -/
def prettyItems (depth : Nat) : List Json → List Char
  | [] => []
  | [j] => newLine depth ++ prettyChars depth j
  | j :: k :: rest => newLine depth ++ prettyChars depth j ++ ',' :: prettyItems depth (k :: rest)

/-- Fields, each on a line of its own. -/
def prettyFields (depth : Nat) : List (String × Json) → List Char
  | [] => []
  | [(n, j)] => newLine depth ++ quoteChars n.toList ++ ':' :: ' ' :: prettyChars depth j
  | (n, j) :: f :: rest =>
    newLine depth ++ quoteChars n.toList ++ ':' :: ' ' :: prettyChars depth j ++
      ',' :: prettyFields depth (f :: rest)

end

/-- The pretty text of a value. -/
def pretty (j : Json) : String := String.ofList (prettyChars 0 j)

end Qualification.Json
