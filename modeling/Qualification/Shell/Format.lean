import Qualification.Text.Cut
import Qualification.Word
/-!
# Formatted output

Escapes and conversions of formats.

* `unescape`: the bytes of a text with escapes;
* `formatAll`: a format, used again as long as there are arguments.
-/

namespace Qualification.Shell

/-- An octal digit. -/
def octal? (c : Char) : Option Nat := if '0' ≤ c && c ≤ '7' then some (c.toNat - 48) else none

/-- At most some octal digits. -/
def octalNumber : (count : Nat) → Nat → List Char → Nat × List Char
  | 0, n, cs => (n, cs)
  | _, n, [] => (n, [])
  | count + 1, n, c :: cs =>
    match octal? c with
    | some d => octalNumber count (n * 8 + d) cs
    | none => (n, c :: cs)

/-- The character that a letter stands for after a backslash. -/
def escapeLetter? (c : Char) : Option Nat :=
  ("abefnrtv\\".toList.zip [7, 8, 27, 12, 10, 13, 9, 11, 92]).lookup c

def bytesOf (cs : List Char) : List UInt8 := (String.ofList cs).toUTF8.data.toList

/-- What an escape stands for; `zero` if octal numbers begin with an additional zero. Nothing else is
written after `\c`. -/
def escape (zero : Bool) (cs : List Char) : Option (List UInt8) × List Char :=
  match cs with
  | [] => (some [92], [])
  | c :: rest =>
    match escapeLetter? c with
    | some n => (some [UInt8.ofNat n], rest)
    | none =>
      if c = 'c' then (none, rest)
      else if (octal? c).isSome && (!zero || c = '0') then
        let (n, rest) := if zero then octalNumber 3 0 rest else octalNumber 3 0 cs
        (some [UInt8.ofNat n], rest)
      else (some (92 :: bytesOf [c]), rest)

/-- The bytes of a text with escapes, and whether anything else may be written. -/
def unescape (zero : Bool) : (fuel : Nat) → List Char → List UInt8 × Bool
  | 0, _ => ([], true)
  | _, [] => ([], true)
  | fuel + 1, '\\' :: cs =>
    match escape zero cs with
    | (some bytes, rest) =>
      let (more, goes) := unescape zero fuel rest
      (bytes ++ more, goes)
    | (none, _) => ([], false)
  | fuel + 1, c :: cs =>
    let (more, goes) := unescape zero fuel cs
    (bytesOf [c] ++ more, goes)

/-- A conversion of a format. -/
structure Conversion where
  flags : List Char
  width : Nat
  precision : Option Nat
  kind : Char

/-- The conversion after a percent sign. -/
def conversion? (cs : List Char) : Option (Conversion × List Char) :=
  let isFlag (c : Char) : Bool := "-+ 0#".toList.contains c
  let flags := cs.takeWhile isFlag
  let rest := cs.dropWhile isFlag
  let width := (String.ofList (rest.takeWhile Char.isDigit)).toNat?.getD 0
  let rest := rest.dropWhile Char.isDigit
  let (precision, rest) := match rest with
    | '.' :: more =>
      (some ((String.ofList (more.takeWhile Char.isDigit)).toNat?.getD 0),
        more.dropWhile Char.isDigit)
    | _ => (none, rest)
  match rest with
  | kind :: rest => some (⟨flags, width, precision, kind⟩, rest)
  | [] => none

/-- Fills a field up to its width. -/
def Conversion.pad (c : Conversion) (bytes : List UInt8) (zeros : Bool) : List UInt8 :=
  let missing := c.width - bytes.length
  if c.flags.contains '-' then bytes ++ List.replicate missing 32
  else if zeros && c.flags.contains '0' then
    match bytes with
    | 45 :: ds => 45 :: List.replicate missing 48 ++ ds
    | ds => List.replicate missing 48 ++ ds
  else List.replicate missing 32 ++ bytes

/-- A number in an argument: decimal, octal after a zero, hexadecimal after `0x`, or the code of a
character after a quote. -/
def number? (arg : String) : Option Int :=
  let (negative, cs) := match Text.dropBlanks arg.toList with
    | '-' :: r => (true, r)
    | '+' :: r => (false, r)
    | r => (false, r)
  let digit (base : Nat) (c : Char) : Option Nat :=
    let v := if c.isDigit then c.toNat - 48
      else if c.isAlpha then c.toLower.toNat - 87 else 99
    if v < base then some v else none
  let read (base : Nat) (ds : List Char) : Option Nat :=
    if ds.isEmpty then none
    else ds.foldlM (fun n c => (digit base c).map fun d => n * base + d) 0
  let n? := match cs with
    | '0' :: 'x' :: ds => read 16 ds
    | '0' :: 'X' :: ds => read 16 ds
    | '0' :: ds@(_ :: _) => read 8 ds
    | '\'' :: c :: _ => some c.toNat
    | '"' :: c :: _ => some c.toNat
    | ds => read 10 ds
  n?.map fun n => if negative then -(n : Int) else n

/-- What comes of a format. -/
structure Formatted where
  bytes : List UInt8
  /-- The arguments that are left. -/
  rest : List String
  /-- The arguments that are no numbers. -/
  wrong : List String
  /-- Whether anything else may be written. -/
  goes : Bool

/-- The digits of a number in a base. -/
def digitsOf (base : Nat) (upper : Bool) (n : Nat) : List UInt8 :=
  bytesOf ((Nat.toDigits base n).map fun c => if upper then c.toUpper else c)

/-- A number as a conversion writes it. -/
def Conversion.number (c : Conversion) (i : Int) : List UInt8 :=
  let wrapped := (if i < 0 then i + Word.count64 else i).toNat
  let bytes :=
    if c.kind = 'd' || c.kind = 'i' then
      (if i < 0 then [45] else if c.flags.contains '+' then [43]
        else if c.flags.contains ' ' then [32] else []) ++ digitsOf 10 false i.natAbs
    else if c.kind = 'o' then digitsOf 8 false wrapped
    else if c.kind = 'x' then digitsOf 16 false wrapped
    else if c.kind = 'X' then digitsOf 16 true wrapped
    else digitsOf 10 false wrapped
  c.pad bytes true

/-- One use of a format. -/
def formatOnce : (fuel : Nat) → List Char → List String → Formatted
  | 0, _, args => ⟨[], args, [], true⟩
  | _, [], args => ⟨[], args, [], true⟩
  | fuel + 1, '\\' :: cs, args =>
    match escape false cs with
    | (some bytes, rest) =>
      let f := formatOnce fuel rest args
      { f with bytes := bytes ++ f.bytes }
    | (none, _) => ⟨[], [], [], false⟩
  | fuel + 1, '%' :: '%' :: cs, args =>
    let f := formatOnce fuel cs args
    { f with bytes := 37 :: f.bytes }
  | fuel + 1, '%' :: cs, args =>
    match conversion? cs with
    | none => ⟨[37], args, [], true⟩
    | some (c, rest) =>
      let arg := args.headD ""
      let cut (bs : List UInt8) : List UInt8 := match c.precision with
        | some n => bs.take n
        | none => bs
      let (bytes, wrong, goes) : List UInt8 × List String × Bool :=
        if c.kind = 's' then (c.pad (cut arg.toUTF8.data.toList) false, [], true)
        else if c.kind = 'b' then
          let (bs, goes) := unescape true (arg.length + 1) arg.toList
          (c.pad (cut bs) false, [], goes)
        else if c.kind = 'c' then (c.pad (arg.toUTF8.data.toList.take 1) false, [], true)
        else
          match args with
          | [] => (c.number 0, [], true)
          | _ =>
            match number? arg with
            | some i => (c.number i, [], true)
            | none => (c.number 0, [arg], true)
      if goes then
        let f := formatOnce fuel rest args.tail
        { f with bytes := bytes ++ f.bytes, wrong := wrong ++ f.wrong }
      else ⟨bytes, [], wrong, false⟩
  | fuel + 1, ch :: cs, args =>
    let f := formatOnce fuel cs args
    { f with bytes := bytesOf [ch] ++ f.bytes }

/-- A format, used again as long as there are arguments that it takes. -/
def formatAll (format : List Char) : (fuel : Nat) → List String → Formatted
  | 0, args => ⟨[], args, [], true⟩
  | fuel + 1, args =>
    let f := formatOnce (format.length + 1) format args
    if f.goes && !f.rest.isEmpty && f.rest.length < args.length then
      let g := formatAll format fuel f.rest
      ⟨f.bytes ++ g.bytes, g.rest, f.wrong ++ g.wrong, g.goes⟩
    else f

end Qualification.Shell
