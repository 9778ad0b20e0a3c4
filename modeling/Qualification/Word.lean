/-!
# Machine words

How many values words of some widths have. Signed words reach from minus half as many to below half
as many.
-/

namespace Qualification.Word

/-- The number of values of 32 bits. -/
abbrev count32 : Nat := 4294967296

/-- Half of the values of 32 bits. -/
abbrev half32 : Nat := 2147483648

/-- The number of values of 64 bits. -/
abbrev count64 : Nat := 18446744073709551616

/-- Half of the values of 64 bits. -/
abbrev half64 : Nat := 9223372036854775808

/-- The number of values of 128 bits. -/
abbrev count128 : Nat := 340282366920938463463374607431768211456

/-- Half of the values of 128 bits. -/
abbrev half128 : Nat := 170141183460469231731687303715884105728

/-- Whether an integer is a signed word of 32 bits. -/
def isInt32 (i : Int) : Bool := -(half32 : Int) ≤ i && i < (half32 : Int)

/-- Whether an integer is a signed word of 64 bits. -/
def isInt64 (i : Int) : Bool := -(half64 : Int) ≤ i && i < (half64 : Int)

/-- Whether an integer is an unsigned word of 64 bits. -/
def isUInt64 (i : Int) : Bool := 0 ≤ i && i < (count64 : Int)

end Qualification.Word
