import ByteFormat.Binary64.Rounding

/-! # Binary interchange encodings

A double is encoded in 64 bits: sign, eleven exponent bits biased by 1023, and 52 fraction bits.
Decoding is total and takes all NaN encodings to the one NaN; encoding picks the quiet NaN. Single
precision values are decoded from their 32 bits and widened, which is exact.
-/

namespace ByteFormat

namespace Binary64

def ofBits (bits : UInt64) : Binary64 :=
  let code := bits.toNat
  let negative : Bool := 9223372036854775808 ≤ code
  let biased := code / 4503599627370496 % 2048
  let fraction := code % 4503599627370496
  if biased = 2047 then
    if fraction = 0 then .infinite negative else .nan
  else if biased = 0 then ofParts negative fraction (-1074)
  else ofParts negative (fraction + 4503599627370496) (biased - 1075)

/-- Encodes a value in 64 bits. The hidden bit of a normal significand carries into the exponent
field, so one formula serves normal and subnormal values. -/
def toBits : Binary64 → UInt64
  | .nan => 0x7FF8000000000000
  | .infinite negative => if negative then 0xFFF0000000000000 else 0x7FF0000000000000
  | .finite negative significand exponent _ =>
      UInt64.ofNat ((if negative then 9223372036854775808 else 0) +
        (exponent + 1074).toNat * 4503599627370496 + significand)

@[simp] theorem ofBits_toBits (value : Binary64) : ofBits value.toBits = value := by
  cases value with
  | nan => decide
  | infinite negative => cases negative <;> decide
  | finite negative significand exponent canonical =>
    obtain ⟨short, lowest, highest, normal⟩ := canonical
    obtain ⟨offset, shifted⟩ := Int.eq_ofNat_of_zero_le (show 0 ≤ exponent + 1074 by omega)
    have code : (toBits (.finite negative significand exponent
        ⟨short, lowest, highest, normal⟩)).toNat =
          (if negative then 9223372036854775808 else 0) + offset * 4503599627370496 +
            significand := by
      simp only [toBits, shifted, UInt64.toNat_ofNat', Int.toNat_natCast]
      cases negative <;> simp <;> omega
    have sign : decide (9223372036854775808 ≤ (if negative then 9223372036854775808 else 0) +
        offset * 4503599627370496 + significand) = negative := by
      cases negative <;> simp <;> omega
    simp only [ofBits, code, sign]
    by_cases small : significand < 4503599627370496
    · have least : offset = 0 := by omega
      have field : ((if negative then 9223372036854775808 else 0) + offset * 4503599627370496 +
          significand) / 4503599627370496 % 2048 = 0 := by
        cases negative <;> simp <;> omega
      have fraction : ((if negative then 9223372036854775808 else 0) + offset * 4503599627370496 +
          significand) % 4503599627370496 = significand := by
        cases negative <;> simp <;> omega
      have bottom : exponent = -1074 := by omega
      subst bottom
      simp [field, fraction, ofParts, Canonical, short]
    · have field : ((if negative then 9223372036854775808 else 0) + offset * 4503599627370496 +
          significand) / 4503599627370496 % 2048 = offset + 1 := by
        cases negative <;> simp <;> omega
      have fraction : ((if negative then 9223372036854775808 else 0) + offset * 4503599627370496 +
          significand) % 4503599627370496 + 4503599627370496 = significand := by
        cases negative <;> simp <;> omega
      have scale : ((offset + 1 : Nat) : Int) - 1075 = exponent := by omega
      rw [field, fraction, scale, if_neg (by omega), if_neg (by omega),
        ofParts_eq_finite ⟨short, lowest, highest, normal⟩]

end Binary64

/-- A single precision number, given by its 32-bit encoding. -/
structure Binary32 where
  bits : UInt32
deriving DecidableEq

/-- The double with the same value. -/
def Binary32.widen (single : Binary32) : Binary64 :=
  let code := single.bits.toNat
  let negative : Bool := 2147483648 ≤ code
  let biased := code / 8388608 % 256
  let fraction := code % 8388608
  if biased = 255 then
    if fraction = 0 then .infinite negative else .nan
  else if biased = 0 then Binary64.ofScaled negative fraction (-149)
  else Binary64.ofScaled negative (fraction + 8388608) (biased - 150)

end ByteFormat
