/-!
# Durations

A span of time in nanoseconds, and its text: in the largest unit of s, ms, µs and ns that it reaches,
with as many digits after the point as it needs.
-/

namespace Qualification

/-- A span of time. -/
structure Duration where
  nanos : Nat
  deriving DecidableEq, Repr, Inhabited

namespace Duration

def ofSeconds (n : Nat) : Duration := ⟨n * 1000000000⟩

def ofMillis (n : Nat) : Duration := ⟨n * 1000000⟩

/-- Whole seconds. -/
def seconds (d : Duration) : Nat := d.nanos / 1000000000

/-- Milliseconds, of which the last one may not be over yet. -/
def millisUp (d : Duration) : Nat := (d.nanos + 999999) / 1000000

/-- A fraction in a number of digits, without zeros at its end. -/
def fraction (width n : Nat) : List Char :=
  let ds := Nat.toDigits 10 n
  let all := List.replicate (width - ds.length) '0' ++ ds
  (all.reverse.dropWhile (· == '0')).reverse

/-- A number of units and a rest below one, of which there are `10 ^ width` in a unit. -/
def inUnit (whole rest width : Nat) (unit : String) : String :=
  let digits := if rest = 0 then [] else '.' :: fraction width rest
  toString whole ++ String.ofList digits ++ unit

/-- The text of a duration. -/
def render (d : Duration) : String :=
  let n := d.nanos
  if 1000000000 ≤ n then inUnit (n / 1000000000) (n % 1000000000) 9 "s"
  else if 1000000 ≤ n then inUnit (n / 1000000) (n % 1000000) 6 "ms"
  else if 1000 ≤ n then inUnit (n / 1000) (n % 1000) 3 "µs"
  else inUnit n 0 0 "ns"

end Duration

end Qualification
