/-!
# Binary floating point in exact arithmetic

A number of the 64-bit binary format is `mantissa * 2 ^ exponent` with at most 53 bits in the
mantissa and an exponent of at least -1074.

* `Binary64.ofDecimal`: the nearest number to a decimal fraction, ties to even;
* `Binary64.shortest`: the fewest decimal digits that read back as the number;
* `Binary64.render`: their text.
-/

namespace Qualification

/-- A binary floating-point number; equality of numbers is `Binary64.same`. -/
inductive Binary64 where
  | finite (negative : Bool) (mantissa : Nat) (exponent : Int)
  | infinite (negative : Bool)
  | notANumber
  deriving DecidableEq, Repr, Inhabited

namespace Binary64

/-- The smallest mantissa of 53 bits. -/
def leastFull : Nat := 4503599627370496

/-- The smallest exponent. -/
def minExponent : Int := -1074

/-- `num / den` rounded to an integer, a half going to the even neighbour. -/
def roundQuotient (num den : Nat) : Nat :=
  let q := num / den
  let r := num % den
  if 2 * r < den ∨ (2 * r = den ∧ q % 2 = 0) then q else q + 1

/-- `num / den` in units of `2 ^ e`, as a quotient. -/
def inUnits (num den : Nat) (e : Int) : Nat × Nat :=
  if 0 ≤ e then (num, den * Nat.pow 2 e.toNat) else (num * Nat.pow 2 (-e).toNat, den)

/-- The exponent at which a positive `num / den` fills 53 bits, but at least `minExponent`. -/
def exponentOf (num den : Nat) : Int :=
  let guess : Int := (num.log2 : Int) - den.log2 - 52
  let e := if (inUnits num den guess).1 / (inUnits num den guess).2 < leastFull then guess - 1 else guess
  max e minExponent

/-- The nearest number to `num / den`. -/
def ofQuotient (negative : Bool) (num den : Nat) : Binary64 :=
  if num = 0 then finite negative 0 minExponent
  else
    let e := exponentOf num den
    let (n, d) := inUnits num den e
    let m := roundQuotient n d
    let (m, e) := if m = 2 * leastFull then (leastFull, e + 1) else (m, e)
    if 971 < e then infinite negative else finite negative m e

/-- The nearest number to `digits * 10 ^ exponent`. -/
def ofDecimal (negative : Bool) (digits : Nat) (exponent : Int) : Binary64 :=
  let size : Int := (Nat.toDigits 10 digits).length
  if digits = 0 then finite negative 0 minExponent
  else if 310 < exponent + size then infinite negative
  else if exponent + size < -330 then finite negative 0 minExponent
  else if 0 ≤ exponent then ofQuotient negative (digits * Nat.pow 10 exponent.toNat) 1
  else ofQuotient negative digits (Nat.pow 10 (-exponent).toNat)

/-- Whether two numbers compare equal: both zeros do, and here not-a-number does with itself. -/
def same : Binary64 → Binary64 → Bool
  | finite s m e, finite t n f => (m == 0 && n == 0) || (s == t && m == n && e == f)
  | infinite s, infinite t => s == t
  | notANumber, notANumber => true
  | _, _ => false

/-- The reals that round to `m * 2 ^ q` (`m > 0`), in quarters of a unit: the lower end, the number
and the upper end over one denominator. The ends belong to it iff `m` is even. -/
def interval (m : Nat) (q : Int) : Nat × Nat × Nat × Nat :=
  let low := if m = leastFull ∧ minExponent < q then 4 * m - 1 else 4 * m - 2
  let unit := q - 2
  let scale := fun (n : Nat) => if 0 ≤ unit then n * Nat.pow 2 unit.toNat else n
  (scale low, scale (4 * m), scale (4 * m + 2), if 0 ≤ unit then 1 else Nat.pow 2 (-unit).toNat)

/-- The decimal exponent of the first digit of `num / den`. -/
def magnitude (num den : Nat) : Int :=
  if den ≤ num then ((Nat.toDigits 10 (num / den)).length : Int) - 1
  else
    -- the first place at which the fraction is not zero
    let k : Int := (Nat.toDigits 10 (den / num)).length
    if den ≤ num * Nat.pow 10 (k - 1).toNat then -(k - 1) else -k

/-- Tries grids of `n`, `n + 1`, … decimal places after the first digit. -/
def searchDigits (low num high den : Nat) (ends : Bool) (p : Int) : (tries n : Nat) → Nat × Int
  | 0, n =>
    let step := p - n
    let units :=
      if 0 ≤ step then num / (den * Nat.pow 10 step.toNat) else num * Nat.pow 10 (-step).toNat / den
    (units, step)
  | tries + 1, n =>
    let step := p - n
    -- everything over one denominator, in units of the grid's step
    let scale := fun (x : Nat) => if 0 ≤ step then x else x * Nat.pow 10 (-step).toNat
    let d := if 0 ≤ step then den * Nat.pow 10 step.toNat else den
    let down := scale num / d
    let inside := fun (x : Nat) =>
      if ends then scale low ≤ x * d ∧ x * d ≤ scale high
      else scale low < x * d ∧ x * d < scale high
    let below := decide (inside down) && down != 0
    let above := decide (inside (down + 1))
    let toDown := scale num - down * d
    let toUp := (down + 1) * d - scale num
    if below && (!above || toDown < toUp || (toDown == toUp && down % 2 == 0)) then (down, step)
    else if above then (down + 1, step)
    else searchDigits low num high den ends p tries (n + 1)

/-- The fewest digits that read back as `m * 2 ^ q` (`m > 0`), of those the nearest, and the decimal
exponent of the last one. -/
def shortest (m : Nat) (q : Int) : Nat × Int :=
  let (low, num, high, den) := interval m q
  searchDigits low num high den (m % 2 == 0) (magnitude num den) 17 0

/-- Takes zeros off the end of a decimal. -/
def dropZeros : (fuel digits : Nat) → Int → Nat × Int
  | 0, d, e => (d, e)
  | fuel + 1, d, e => if d != 0 && d % 10 == 0 then dropZeros fuel (d / 10) (e + 1) else (d, e)

/-- The text of `digits * 10 ^ exponent`: positional with the point after at most sixteen digits and
before at most four zeros, else with an exponent; positional text always has a point. -/
def renderDigits (digits : Nat) (exponent : Int) : String :=
  let ds := Nat.toDigits 10 digits
  let point : Int := ds.length + exponent
  let zeros := fun (n : Int) => List.replicate n.toNat '0'
  if 0 ≤ exponent ∧ point ≤ 16 then String.ofList (ds ++ zeros exponent ++ ['.', '0'])
  else if 0 < point ∧ point ≤ 16 then
    String.ofList (ds.take point.toNat ++ '.' :: ds.drop point.toNat)
  else if -5 < point ∧ point ≤ 0 then String.ofList ('0' :: '.' :: zeros (-point) ++ ds)
  else
    let head := match ds with
      | d :: [] => [d]
      | d :: rest => d :: '.' :: rest
      | [] => []
    String.ofList head ++ "e" ++ toString (point - 1)

/-- The text of a number. -/
def render : Binary64 → String
  | finite negative m q =>
    let sign := if negative then "-" else ""
    if m = 0 then sign ++ "0.0"
    else
      let (d, e) := shortest m q
      let (d, e) := dropZeros 17 d e
      sign ++ renderDigits d e
  | infinite negative => if negative then "-.inf" else ".inf"
  | notANumber => ".nan"

end Binary64

end Qualification
