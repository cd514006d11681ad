import ByteFormat.Binary64.Basic

/-! # Rounding exact quotients to binary64

Every arithmetic operation on doubles has an exact rational result, which is then rounded to the
nearest double. Exact results are quotients of natural numbers, so all of the work is integer
arithmetic: the exponent follows from the position of the leading bit, the significand is the
nearest multiple of the unit in the last place, and a half goes to the even neighbour.
-/

namespace ByteFormat.Binary64

/-- The natural number nearest to `numerator / denominator`; a half goes to the even neighbour. -/
def nearestQuotient (numerator denominator : Nat) : Nat :=
  let quotient := numerator / denominator
  let twice := 2 * (numerator % denominator)
  if twice < denominator ∨ (twice = denominator ∧ quotient % 2 = 0) then quotient
  else quotient + 1

/-- The exponent of the leading bit of a positive quotient: the largest power of two that does not
exceed it. The bit lengths of the two sides fix it up to one. -/
def leadingExponent (numerator denominator : Nat) : Int :=
  let estimate : Int := (numerator.log2 : Int) - (denominator.log2 : Int)
  if denominator <<< estimate.toNat ≤ numerator <<< (-estimate).toNat then estimate
  else estimate - 1

/-- The double nearest to `numerator / denominator`. Significands are rounded on the grid of the
quotient's own binade, or on the subnormal grid below it; a significand rounded up to the next
power of two moves to the next binade, and a magnitude beyond the last binade is infinite. -/
def ofQuotient (negative : Bool) (numerator denominator : Nat) : Binary64 :=
  if numerator = 0 then zero negative
  else
    let exponent := max (-1074) (leadingExponent numerator denominator - 52)
    let significand :=
      nearestQuotient (numerator <<< (-exponent).toNat) (denominator <<< exponent.toNat)
    if significand = 9007199254740992 then ofParts negative 4503599627370496 (exponent + 1)
    else ofParts negative significand exponent

/-- The double nearest to `significand * 2^exponent`. -/
def ofScaled (negative : Bool) (significand : Nat) (exponent : Int) : Binary64 :=
  ofQuotient negative (significand <<< exponent.toNat) (1 <<< (-exponent).toNat)

/-- The double nearest to an integer. -/
def ofInt (value : Int) : Binary64 :=
  ofQuotient (value < 0) value.natAbs 1

def ofNat (value : Nat) : Binary64 :=
  ofQuotient false value 1

/-- Rounding stays within half a unit of the exact quotient. -/
theorem nearestQuotient_error (numerator : Nat) {denominator : Nat} (positive : 0 < denominator) :
    2 * numerator ≤ (2 * nearestQuotient numerator denominator + 1) * denominator ∧
      2 * (nearestQuotient numerator denominator * denominator) ≤ 2 * numerator + denominator := by
  have split := Nat.div_add_mod numerator denominator
  have below := Nat.mod_lt numerator positive
  have commute : denominator * (numerator / denominator) = numerator / denominator * denominator :=
    Nat.mul_comm ..
  simp only [nearestQuotient]
  split <;> rename_i side <;>
    simp only [Nat.add_mul, Nat.mul_add, Nat.mul_assoc, Nat.one_mul, Nat.mul_one] at * <;> omega

end ByteFormat.Binary64
