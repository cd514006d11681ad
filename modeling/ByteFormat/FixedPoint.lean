import ByteFormat.Binary64.Arithmetic
import ByteFormat.Numeral.Field

/-! # Fixed-point fields

A double is written as an integer part, a point and a fraction. Half a unit of the last place is
added to the magnitude before it is cut, all in double arithmetic, so a value whose nearest double
lies just below a half is rounded down. The field width counts the point and the requested fraction:
the integer part is padded to what they leave of it. The fraction has at least one digit, even if
none is requested, and is padded with zeros.
-/

namespace ByteFormat.FixedPoint

def half : Binary64 :=
  .finite false 4503599627370496 (-53) (by decide)

/-- Powers of ten by repeated multiplication, each product rounded. -/
def scale (precision : Nat) : Binary64 :=
  Nat.repeat (·.mul (Binary64.ofNat 10)) precision (Binary64.ofNat 1)

/-- The magnitude to be cut: the absolute value and half a unit of the last place. -/
def biased (value : Binary64) (precision : Nat) : Binary64 :=
  (if value.isNegative then value.neg else value).add (half.div (scale precision))

/-- The integer part, saturated to a word. -/
def whole (value : Binary64) (precision : Nat) : UInt64 :=
  (biased value precision).toUInt64

/-- The fraction in units of the last place. -/
def fraction (value : Binary64) (precision : Nat) : UInt64 :=
  let rest := (biased value precision).sub (Binary64.ofNat (whole value precision).toNat)
  (rest.mul (scale precision)).toUInt64

/-- The integer part with its sign and padding. -/
def wholeField (value : Binary64) (precision : Nat) (padding : Padding) : List UInt8 :=
  (Magnitude.word64 (whole value precision)).field .decimal value.isNegative
    { padding with width := padding.width - precision - 1 }

def fractionField (value : Binary64) (precision : Nat) : List UInt8 :=
  (Magnitude.word64 (fraction value precision)).field .decimal false
    { width := precision, fill := '0'.toUInt8 }

/-- The field of a double with the given number of places. -/
def field (value : Binary64) (precision : Nat) (padding : Padding) : List UInt8 :=
  wholeField value precision padding ++ '.'.toUInt8 :: fractionField value precision

end ByteFormat.FixedPoint
