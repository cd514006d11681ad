import ByteFormat.Binary64.Rounding

/-! # Arithmetic on binary64 values

Sums, differences, products and quotients are exact and rounded once. Conversion to an integer type
truncates toward zero and saturates at the ends of the type's range; NaN converts to zero.
-/

namespace ByteFormat.Binary64

def signed (negative : Bool) (magnitude : Nat) : Int :=
  if negative then -(magnitude : Int) else magnitude

/-- The sum. A sum that cancels is the positive zero, unless both terms are negative zeros. -/
def add : Binary64 → Binary64 → Binary64
  | .finite left significand exponent _, .finite right significand' exponent' _ =>
      let unit := min exponent exponent'
      let total := signed left (significand <<< (exponent - unit).toNat) +
        signed right (significand' <<< (exponent' - unit).toNat)
      if total = 0 then zero (left && right) else ofScaled (total < 0) total.natAbs unit
  | .infinite left, .infinite right => if left = right then .infinite left else .nan
  | .infinite negative, .finite .. => .infinite negative
  | .finite .., .infinite negative => .infinite negative
  | .nan, _ => .nan
  | _, .nan => .nan

def sub (left right : Binary64) : Binary64 :=
  add left right.neg

def mul : Binary64 → Binary64 → Binary64
  | .finite left significand exponent _, .finite right significand' exponent' _ =>
      ofScaled (left != right) (significand * significand') (exponent + exponent')
  | .infinite left, .infinite right => .infinite (left != right)
  | .infinite left, .finite right significand _ _ =>
      if significand = 0 then .nan else .infinite (left != right)
  | .finite left significand _ _, .infinite right =>
      if significand = 0 then .nan else .infinite (left != right)
  | .nan, _ => .nan
  | _, .nan => .nan

def div : Binary64 → Binary64 → Binary64
  | .finite left significand exponent _, .finite right significand' exponent' _ =>
      if significand' = 0 then
        if significand = 0 then .nan else .infinite (left != right)
      else
        ofQuotient (left != right) (significand <<< (exponent - exponent').toNat)
          (significand' <<< (exponent' - exponent).toNat)
  | .infinite _, .infinite _ => .nan
  | .infinite left, .finite right _ _ _ => .infinite (left != right)
  | .finite left _ _ _, .infinite right => zero (left != right)
  | .nan, _ => .nan
  | _, .nan => .nan

/-- The integer part of `significand * 2^exponent`. -/
def integerPart (significand : Nat) (exponent : Int) : Nat :=
  (significand <<< exponent.toNat) >>> (-exponent).toNat

/-- Truncates toward zero and clamps into `low … high`. NaN gives zero. -/
def truncate (low high : Int) : Binary64 → Int
  | .nan => 0
  | .infinite negative => if negative then low else high
  | .finite negative significand exponent _ =>
      max low (min high (signed negative (integerPart significand exponent)))

def toUInt64 (value : Binary64) : UInt64 :=
  UInt64.ofNat (value.truncate 0 18446744073709551615).toNat

def toInt64 (value : Binary64) : Int64 :=
  Int64.ofInt (value.truncate (-9223372036854775808) 9223372036854775807)

def toInt32 (value : Binary64) : Int32 :=
  Int32.ofInt (value.truncate (-2147483648) 2147483647)

end ByteFormat.Binary64
