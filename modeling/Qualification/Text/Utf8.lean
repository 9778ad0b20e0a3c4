/-!
# Bytes and text

Text is stored as UTF-8. `decode?` reads exact text; `decodeLossy` reads any bytes and writes one
replacement character for each longest piece that begins, but does not complete, a character.
-/

namespace Qualification.Text

/-- The character that stands for bytes that are no text. -/
def replacement : Char := Char.ofNat 0xFFFD

/-- A character of which some bytes are still to come: its bits so far, the number of bytes it
needs, and the range of the next one. -/
structure Unfinished where
  bits : Nat
  needed : Nat
  low : Nat
  high : Nat

/-- What a first byte begins: a whole character, an unfinished one, or nothing. -/
def leadByte (b : Nat) : Option (Char ⊕ Unfinished) :=
  if b < 0x80 then some (.inl (Char.ofNat b))
  else if 0xC2 ≤ b ∧ b ≤ 0xDF then some (.inr ⟨b - 0xC0, 1, 0x80, 0xBF⟩)
  else if b = 0xE0 then some (.inr ⟨0, 2, 0xA0, 0xBF⟩)
  else if b = 0xED then some (.inr ⟨0xD, 2, 0x80, 0x9F⟩)
  else if 0xE1 ≤ b ∧ b ≤ 0xEF then some (.inr ⟨b - 0xE0, 2, 0x80, 0xBF⟩)
  else if b = 0xF0 then some (.inr ⟨0, 3, 0x90, 0xBF⟩)
  else if 0xF1 ≤ b ∧ b ≤ 0xF3 then some (.inr ⟨b - 0xF0, 3, 0x80, 0xBF⟩)
  else if b = 0xF4 then some (.inr ⟨4, 3, 0x80, 0x8F⟩)
  else none

/-- The characters of bytes, after an unfinished character or none. -/
def decodeFrom : Option Unfinished → List UInt8 → List Char
  | none, [] => []
  | some _, [] => [replacement]
  | pending, b :: bs =>
    let fresh : List Char :=
      match leadByte b.toNat with
      | none => replacement :: decodeFrom none bs
      | some (.inl c) => c :: decodeFrom none bs
      | some (.inr u) => decodeFrom (some u) bs
    match pending with
    | none => fresh
    | some u =>
      if u.low ≤ b.toNat ∧ b.toNat ≤ u.high then
        let bits := u.bits * 64 + (b.toNat - 0x80)
        if u.needed ≤ 1 then Char.ofNat bits :: decodeFrom none bs
        else decodeFrom (some ⟨bits, u.needed - 1, 0x80, 0xBF⟩) bs
      else replacement :: fresh

/-- Reads bytes as text; what is no text becomes replacement characters. -/
def decodeLossy (bytes : ByteArray) : String :=
  String.ofList (decodeFrom none bytes.data.toList)

/-- Reads bytes that are exactly a text. -/
def decode? (bytes : ByteArray) : Option String := String.fromUTF8? bytes

/-- The bytes of a text. -/
def encode (s : String) : ByteArray := s.toUTF8

end Qualification.Text
