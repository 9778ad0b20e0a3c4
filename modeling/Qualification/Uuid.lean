/-!
# Identifiers

A UUID is a number of 128 bits. It is written as five groups of hexadecimal digits with hyphens
between them, and read in that form, without hyphens, in braces, or after `urn:uuid:`.
-/

namespace Qualification

/-- An identifier of 128 bits. -/
structure Uuid where
  bits : BitVec 128
  deriving DecidableEq

namespace Uuid

instance : Inhabited Uuid := ⟨⟨0#128⟩⟩

/-- The identifier of a number, of which only 128 bits count. -/
def ofNat (n : Nat) : Uuid := ⟨BitVec.ofNat 128 n⟩

def hexValue? (c : Char) : Option Nat :=
  if '0' ≤ c ∧ c ≤ '9' then some (c.toNat - '0'.toNat)
  else if 'a' ≤ c ∧ c ≤ 'f' then some (c.toNat - 'a'.toNat + 10)
  else if 'A' ≤ c ∧ c ≤ 'F' then some (c.toNat - 'A'.toNat + 10)
  else none

/-- The last `count` hexadecimal digits of a number, in lower case. -/
def hexDigits : (count : Nat) → Nat → List Char
  | 0, _ => []
  | count + 1, n => hexDigits count (n / 16) ++ ["0123456789abcdef".toList.getD (n % 16) '0']

/-- Puts hyphens after the digits 8, 12, 16 and 20. -/
def hyphenated (ds : List Char) : List Char :=
  ds.take 8 ++ '-' :: (ds.drop 8).take 4 ++ '-' :: (ds.drop 12).take 4 ++
    '-' :: (ds.drop 16).take 4 ++ '-' :: ds.drop 20

def renderChars (u : Uuid) : List Char := hyphenated (hexDigits 32 u.bits.toNat)

/-- The hyphenated text in lower case. -/
def render (u : Uuid) : String := String.ofList u.renderChars

/-- The number of hexadecimal digits. -/
def ofHex? (ds : List Char) : Option Nat :=
  ds.foldlM (fun n c => (hexValue? c).map fun d => n * 16 + d) 0

/-- Reads 32 digits. -/
def ofPlain? (ds : List Char) : Option Uuid :=
  if ds.length = 32 then (ofHex? ds).map ofNat else none

/-- Reads 32 digits with hyphens at their places. -/
def ofHyphenated? (cs : List Char) : Option Uuid :=
  if cs.length = 36 ∧ cs[8]? = some '-' ∧ cs[13]? = some '-' ∧ cs[18]? = some '-' ∧
      cs[23]? = some '-' then
    ofPlain? (cs.take 8 ++ (cs.drop 9).take 4 ++ (cs.drop 14).take 4 ++ (cs.drop 19).take 4 ++
      cs.drop 24)
  else none

/-- Reads an identifier in any of its forms. -/
def parse? (s : String) : Option Uuid :=
  let cs := s.toList
  if cs.length = 32 then ofPlain? cs
  else if cs.length = 36 then ofHyphenated? cs
  else if cs.length = 38 ∧ cs.head? = some '\x7b' ∧ cs.getLast? = some '\x7d' then
    ofHyphenated? (cs.tail.dropLast)
  else if cs.length = 45 ∧ cs.take 9 = "urn:uuid:".toList then ofHyphenated? (cs.drop 9)
  else none

end Uuid

end Qualification
