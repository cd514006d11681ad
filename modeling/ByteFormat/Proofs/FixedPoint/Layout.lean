import ByteFormat.Proofs.FixedPoint.Cut
import ByteFormat.Proofs.Numeral.Reading

/-! # Layout of fixed-point fields

A fixed-point field is padding, a sign, the numeral of the whole part, a point and the digits of the
fraction (`field_eq`). As long as the fraction stays below a whole unit, it has one digit for each
place, and one digit if there are no places (`length_fractionField`). It does so for every double
that fits into a word, and for NaN: a carry out of the fraction always arrives in the whole part
(`carries_reach_whole`). Doubles that do not fit saturate the whole part (`whole_of_not_fits`).
Padding fills up what the width leaves of the field, or seems to leave (`field_eq_filled`).
-/

namespace ByteFormat

namespace Binary64

/-- A double is NaN, or finite with a magnitude that fits into a word. -/
def FitsWord (value : Binary64) : Prop :=
  value = .nan ∨ ∃ number, value.value? = some number ∧ |number| < 2 ^ 64

private theorem nan_add (right : Binary64) : add .nan right = .nan := by
  cases right <;> rfl

private theorem nan_mul (right : Binary64) : mul .nan right = .nan := by
  cases right <;> rfl

end Binary64

namespace FixedPoint

open Binary64

private theorem fraction_nan (precision : ℕ) : fraction .nan precision = 0 := by
  have nan : biased .nan precision = .nan := nan_add _
  rw [fraction, nan, sub, nan_add, nan_mul]
  rfl

theorem isNegative_iff {value : Binary64} (fits : value.FitsWord) :
    value.isNegative = true ↔ ∃ number, value.value? = some number ∧ number < 0 := by
  rcases fits with rfl | ⟨number, finite, _⟩
  · simp [isNegative, value?]
  · rw [(value?_abs finite).1, decide_eq_true_eq]
    simp [finite]

/-- The fraction of a double that fits into a word stays below a whole unit. -/
theorem fraction_lt {value : Binary64} (fits : value.FitsWord) {precision : ℕ}
    (short : precision ≤ 9) : (fraction value precision).toNat < 10 ^ precision := by
  rcases fits with rfl | ⟨number, finite, below⟩
  · rw [fraction_nan]
    exact Nat.pow_pos (by norm_num)
  · obtain ⟨cut, _, behind⟩ := exists_cut finite short below
    rw [behind]
    exact cut.fraction_lt

/-- A double that does not fit into a word has the largest word as its whole part. -/
theorem whole_of_not_fits {value : Binary64} (large : ¬ value.FitsWord) {precision : ℕ}
    (short : precision ≤ 9) : (whole value precision).toNat = 18446744073709551615 := by
  cases value with
  | nan => exact absurd (.inl rfl) large
  | infinite negative =>
    obtain ⟨bias, computed, _⟩ := exists_bias short
    have infinite : biased (.infinite negative) precision = .infinite false := by
      unfold biased
      cases double : half.div (scale precision) with
      | finite => cases negative <;> rfl
      | _ => rw [double] at computed; cases computed
    rw [whole, infinite]
    rfl
  | finite negative significand exponent canonical =>
    have above : (2 : ℚ) ^ 64 ≤ |sign negative * (significand * 2 ^ exponent)| := by
      by_contra below
      exact large (.inr ⟨_, rfl, not_le.mp below⟩)
    have exact : (finite negative significand exponent canonical).value? =
        some (sign negative * (significand * 2 ^ exponent)) := rfl
    obtain ⟨bias, rounds, approximates⟩ := biased_approximates exact short
    rcases approximates with ⟨sum, finite, sumRounds⟩ | ⟨infinite, _⟩
    · apply toNat_toUInt64_of_ge finite
      exact above.trans (sumRounds.le_of_representable (representable_abs exact)
        (le_add_of_nonneg_right rounds.nonneg))
    · rw [whole, infinite]
      rfl

/-- A fixed-point field is padding, sign, whole part, point and fraction. -/
theorem field_eq (value : Binary64) (precision : ℕ) (padding : Padding) :
    field value precision padding =
      List.replicate (min (padding.width - precision - 1) 66 - (signBytes value.isNegative ++
          Radix.decimal.numeral (whole value precision).toNat).length) padding.fill ++
        (signBytes value.isNegative ++ Radix.decimal.numeral (whole value precision).toNat) ++
        '.'.toUInt8 :: fractionField value precision := by
  rw [field, wholeField, Magnitude.field_eq]
  rfl

theorem field_of_width_zero (value : Binary64) (precision : ℕ) (fill : UInt8) :
    field value precision { width := 0, fill } =
      signBytes value.isNegative ++ Radix.decimal.numeral (whole value precision).toNat ++
        '.'.toUInt8 :: fractionField value precision := by
  simp [field_eq]

/-- A width puts padding in front of what is written without one. -/
theorem field_eq_padded (value : Binary64) (precision : ℕ) (padding : Padding) :
    field value precision padding =
      List.replicate (min (padding.width - precision - 1) 66 - (signBytes value.isNegative ++
          Radix.decimal.numeral (whole value precision).toNat).length) padding.fill ++
        field value precision { width := 0, fill := padding.fill } := by
  rw [field_of_width_zero, field_eq, List.append_assoc]

theorem fractionField_eq (value : Binary64) (precision : ℕ) :
    fractionField value precision =
      List.replicate (min precision 66 -
          (Radix.decimal.numeral (fraction value precision).toNat).length) '0'.toUInt8 ++
        Radix.decimal.numeral (fraction value precision).toNat := by
  rw [fractionField, Magnitude.field_eq]
  rfl

theorem natural?_fractionField (value : Binary64) (precision : ℕ) :
    Radix.decimal.natural? (fractionField value precision) =
      some (fraction value precision).toNat := by
  rw [fractionField_eq, Radix.natural?_replicate_zero, Radix.natural?_numeral]

/-- A fraction below a whole unit has a digit for each place, and one if there are no places. -/
theorem length_fractionField {value : Binary64} {precision : ℕ} (short : precision ≤ 9)
    (small : (fraction value precision).toNat < 10 ^ precision) :
    (fractionField value precision).length = max precision 1 := by
  have digits := Radix.decimal.length_numeral_le_max small
  have some := List.length_pos_iff.mpr
    (Radix.decimal.numeral_ne_nil (fraction value precision).toNat)
  rw [fractionField_eq, List.length_append, List.length_replicate]
  omega

/-- A fraction of zero is a zero for each place, and one if there are no places. -/
theorem fractionField_of_eq_zero {value : Binary64} {precision : ℕ} (short : precision ≤ 9)
    (zero : (fraction value precision).toNat = 0) :
    fractionField value precision = List.replicate (max precision 1) '0'.toUInt8 := by
  have numeral : Radix.decimal.numeral 0 = List.replicate 1 '0'.toUInt8 := rfl
  rw [fractionField_eq, zero, numeral, List.length_replicate, ← List.replicate_add]
  congr 1
  omega

/-- With places, padding fills a field up to a width that a directive can ask for. Without places it
goes one column further, that of the digit which stands behind the point nevertheless. -/
theorem field_eq_filled (value : Binary64) {precision : ℕ} (short : precision ≤ 9)
    {padding : Padding} (narrow : padding.width ≤ 9) :
    field value precision padding =
      List.replicate ((padding.width + if precision = 0 then 1 else 0) -
          (field value precision { width := 0, fill := padding.fill }).length) padding.fill ++
        field value precision { width := 0, fill := padding.fill } := by
  have total : (field value precision { width := 0, fill := padding.fill }).length =
      (signBytes value.isNegative ++ Radix.decimal.numeral (whole value precision).toNat).length +
        ((fractionField value precision).length + 1) := by
    rw [field_of_width_zero, List.length_append, List.length_cons]
  rw [field_eq_padded, total]
  congr 2
  by_cases fits : value.FitsWord
  · have places := length_fractionField short (fraction_lt fits short)
    split <;> omega
  · -- The largest word is wider than any such field.
    have wide : 9 < (signBytes value.isNegative ++
        Radix.decimal.numeral (whole value precision).toNat).length := by
      have digits := (Nat.lt_digits_length_iff Radix.decimal.one_lt_base (k := 9)
        (whole value precision).toNat).mpr (by rw [whole_of_not_fits fits short]; decide)
      rw [List.length_append, Radix.length_numeral]
      omega
    split <;> omega

private theorem exists_digit_of_mem_fractionField {value : Binary64} {precision : ℕ} {byte : UInt8}
    (member : byte ∈ fractionField value precision) : ∃ digit < 10, byte = Radix.symbol digit := by
  rw [fractionField_eq, List.mem_append] at member
  rcases member with zero | digit
  · exact ⟨0, by norm_num, List.eq_of_mem_replicate zero⟩
  · exact Radix.exists_digit_of_mem_numeral digit

/-- Rounding carries always reach the whole part. For NaN and for every number that fits into a
word, with up to nine places and any padding, the field is padding, a sign exactly for numbers below
zero, a numeral without needless zeros, a point, and one digit for each place, at least one: what is
left behind the point, in units of the last place, is rounded to less than a whole unit. -/
theorem carries_reach_whole {value : Binary64} (fits : value.FitsWord) {precision : ℕ}
    (short : precision ≤ 9) (padding : Padding) :
    (fraction value precision).toNat < 10 ^ precision ∧
    ∃ (count : ℕ) (digits places : List UInt8),
      field value precision padding =
        List.replicate count padding.fill ++ (signBytes value.isNegative ++ digits) ++
          '.'.toUInt8 :: places ∧
      (value.isNegative = true ↔ ∃ number, value.value? = some number ∧ number < 0) ∧
      Radix.decimal.IsNumeral digits (whole value precision).toNat ∧
      places.length = max precision 1 ∧
      (∀ byte ∈ places, ∃ digit < 10, byte = Radix.symbol digit) ∧
      Radix.decimal.natural? places = some (fraction value precision).toNat := by
  have small := fraction_lt fits short
  exact ⟨small, _, _, _, field_eq value precision padding, isNegative_iff fits,
    Radix.decimal.isNumeral_numeral _, length_fractionField short small,
    fun _ => exists_digit_of_mem_fractionField, natural?_fractionField value precision⟩

/-- The nearest double to nine and 999 thousandths carries through all its digits at two places. -/
theorem carries_reach_whole_nines :
    (fraction (.finite false 5628936584259699 (-49) (by decide)) 2).toNat < 100 ∧
    ∃ (count : ℕ) (places : List UInt8),
      field (.finite false 5628936584259699 (-49) (by decide)) 2
          { width := 8, fill := ' '.toUInt8 } =
        List.replicate count ' '.toUInt8 ++ ['1'.toUInt8, '0'.toUInt8] ++ '.'.toUInt8 :: places ∧
      places.length = 2 := by
  have carried : (whole (.finite false 5628936584259699 (-49) (by decide)) 2).toNat = 10 := by
    decide +kernel
  have fits : FitsWord (.finite false 5628936584259699 (-49) (by decide)) :=
    .inr ⟨_, rfl, by norm_num [sign]⟩
  obtain ⟨small, count, digits, places, laid, _, numeral, length, _⟩ :=
    carries_reach_whole fits (by decide : 2 ≤ 9) { width := 8, fill := ' '.toUInt8 }
  rw [carried, Radix.isNumeral_iff] at numeral
  have ten : Radix.decimal.numeral 10 = ['1'.toUInt8, '0'.toUInt8] := by decide +kernel
  rw [numeral, ten] at laid
  exact ⟨small, count, places, laid, length⟩

end FixedPoint

end ByteFormat
