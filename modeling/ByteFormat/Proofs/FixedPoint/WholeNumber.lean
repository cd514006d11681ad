import ByteFormat.Proofs.FixedPoint.Layout

/-! # Fixed-point fields of whole numbers

With places, half a unit of the last one never takes a whole number to the next, nor to the next
unit of the last place. Without places, the half that is added can be a tie of two doubles: the
whole numbers from `2^52` to `2^53` are neighbouring doubles, and the sum of an odd one and a half
goes up to the even neighbour. These are the only whole numbers that are not written as themselves
(`field_of_whole`).
-/

namespace ByteFormat

namespace Binary64

private theorem spacing_le_of_lt {exact : ℚ} (positive : 0 < exact) (exponent : ℤ)
    (normal : -1074 ≤ exponent) (below : exact < 2 ^ (exponent + 53)) :
    spacing exact ≤ 2 ^ exponent := by
  have log : Int.log 2 exact < exponent + 53 :=
    (Int.lt_zpow_iff_log_lt (b := 2) (by norm_num) positive).mp (by exact_mod_cast below)
  exact zpow_le_zpow_right₀ (by norm_num) (max_le normal (by omega))

private theorem le_spacing_of_le {exact : ℚ} (exponent : ℤ) (above : 2 ^ (exponent + 52) ≤ exact) :
    2 ^ exponent ≤ spacing exact := by
  have positive : 0 < exact := (zpow_pos (by norm_num) _).trans_le above
  have log : exponent + 52 ≤ Int.log 2 exact :=
    (Int.zpow_le_iff_le_log (b := 2) (by norm_num) positive).mp (by exact_mod_cast above)
  exact zpow_le_zpow_right₀ (by norm_num) (le_max_of_le_right (by omega))

/-- Where doubles are the whole numbers, a half goes to the even neighbour. -/
private theorem Rounds.eq_even {number : ℕ} {rounded : ℚ} (rounds : Rounds (number + 1 / 2) rounded)
    (unit : spacing (number + 1 / 2) = 1) : rounded = (number + number % 2 : ℕ) := by
  obtain ⟨steps, rfl, nearest⟩ := rounds
  rw [unit, div_one] at nearest
  have error := abs_le.mp nearest.error
  have lower : (number : ℚ) ≤ steps := by linarith
  have upper : (steps : ℚ) ≤ (number + 1 : ℕ) := by push_cast; linarith
  have tie : |(number : ℚ) + 1 / 2 - steps| = 1 / 2 → steps % 2 = 0 := nearest.even
  have either : steps = number ∨ steps = number + 1 := by
    have : number ≤ steps := by exact_mod_cast lower
    have : steps ≤ number + 1 := by exact_mod_cast upper
    omega
  have even : steps % 2 = 0 := by
    apply tie
    rcases either with rfl | rfl
    · norm_num
    · push_cast
      norm_num
  rw [unit, mul_one]
  congr 1
  omega

end Binary64

namespace FixedPoint

open Binary64

/-- What rounding adds to a whole number: one to odd numbers of 53 bits if no places are asked for.
-/
def carry (precision number : ℕ) : ℕ :=
  if precision = 0 ∧ 2 ^ 52 ≤ number ∧ number < 2 ^ 53 then number % 2 else 0

variable {precision number : ℕ}

private theorem Cut.whole_eq_of_lt (cut : Cut number precision) (below : cut.sum < number + 1) :
    cut.whole = number :=
  (Nat.floor_eq_iff cut.sum_representable.nonneg).mpr ⟨cut.le_sum, below⟩

private theorem Cut.natCast_of_places (cut : Cut number precision) (some : precision ≠ 0) :
    cut.whole = number ∧ cut.fraction = 0 := by
  have bound := cut.sum_le some
  have unit := lastPlace_le_one precision
  have front : cut.whole = number := cut.whole_eq_of_lt (by linarith)
  refine ⟨front, Nat.floor_eq_zero.mpr ?_⟩
  have rest : cut.rest ≤ 992 / 1000 * lastPlace precision := by
    rw [rest, front]
    linarith
  have scaled : cut.rest * 10 ^ precision ≤ 992 / 1000 := by
    have product := mul_le_mul_of_nonneg_right rest (by positivity : (0 : ℚ) ≤ 10 ^ precision)
    rwa [mul_assoc, lastPlace_mul, mul_one] at product
  have close := cut.product_le
  have tiny := least_lt
  linarith

section NoPlaces

variable (cut : Cut number 0)

include cut

private theorem Cut.rounds_half : Rounds (number + 1 / 2) cut.sum := by
  rw [← cut.bias_eq_half rfl]
  exact cut.sum_rounds

/-- Below `2^52` there are doubles at the halves, and a half takes no number to the next. -/
theorem Cut.whole_of_lt (small : number < 2 ^ 52) : cut.whole = number := by
  have fine : spacing (number + 1 / 2 : ℚ) ≤ 2 ^ (-1 : ℤ) := by
    apply spacing_le_of_lt (by positivity) (-1) (by norm_num)
    have bound : (number : ℚ) + 1 ≤ 2 ^ 52 := by exact_mod_cast small
    norm_num
    linarith
  have error := (abs_le.mp cut.rounds_half.abs_sub_le).2
  norm_num at fine
  exact cut.whole_eq_of_lt (by linarith)

/-- From `2^52` to `2^53` the doubles are the whole numbers, and a half is a tie. -/
theorem Cut.whole_of_tie (normal : 2 ^ 52 ≤ number) (short : number < 2 ^ 53) :
    cut.whole = number + number % 2 := by
  have unit : spacing (number + 1 / 2 : ℚ) = 1 := by
    apply le_antisymm
    · have bound : (number : ℚ) + 1 ≤ 2 ^ 53 := by exact_mod_cast short
      have fine : spacing (number + 1 / 2 : ℚ) ≤ 2 ^ (0 : ℤ) :=
        spacing_le_of_lt (by positivity) 0 (by norm_num) (by norm_num; linarith)
      simpa using fine
    · have bound : (2 : ℚ) ^ 52 ≤ number := by exact_mod_cast normal
      have coarse : (2 : ℚ) ^ (0 : ℤ) ≤ spacing (number + 1 / 2) :=
        le_spacing_of_le 0 (by norm_num; linarith)
      simpa using coarse
  rw [whole, cut.rounds_half.eq_even unit, Nat.floor_natCast]

/-- From `2^53` on the doubles are too far apart for a half. -/
theorem Cut.whole_of_ge (large : 2 ^ 53 ≤ number) : cut.whole = number := by
  have coarse : (2 : ℚ) ^ (1 : ℤ) ≤ spacing (number + 1 / 2 : ℚ) := by
    apply le_spacing_of_le 1
    have bound : (2 : ℚ) ^ 53 ≤ number := by exact_mod_cast large
    norm_num
    linarith
  have absorbed := cut.rounds_half.absorbs cut.representable (by norm_num) (by linarith)
  rw [whole, absorbed, Nat.floor_natCast]

/-- Without places, a whole number is written as itself or, if its sum with a half is a tie that
goes up, as the next one. -/
private theorem Cut.natCast_of_no_places :
    cut.whole = number + carry 0 number ∧ cut.fraction = 0 := by
  refine ⟨?_, by simpa using cut.fraction_lt⟩
  rcases lt_or_ge number (2 ^ 52) with small | normal
  · rw [cut.whole_of_lt small, carry, if_neg (by omega), add_zero]
  · rcases lt_or_ge number (2 ^ 53) with short | large
    · rw [cut.whole_of_tie normal short, carry, if_pos ⟨rfl, normal, short⟩]
    · rw [cut.whole_of_ge large, carry, if_neg (by omega), add_zero]

end NoPlaces

/-- A whole number is written as itself and what rounding adds to it. -/
theorem Cut.whole_natCast (cut : Cut number precision) :
    cut.whole = number + carry precision number ∧ cut.fraction = 0 := by
  by_cases none : precision = 0
  · subst none
    exact cut.natCast_of_no_places
  · rw [carry, if_neg (by omega), add_zero]
    exact cut.natCast_of_places none

/-- The field of a whole number has nothing but zeros behind the point. -/
theorem field_of_whole {value : Binary64} {number : ℤ} (holds : value.value? = some (number : ℚ))
    (below : |number| < 2 ^ 64) (short : precision ≤ 9) (fill : UInt8) :
    field value precision { width := 0, fill } =
      signBytes (number < 0) ++
        Radix.decimal.numeral (number.natAbs + carry precision number.natAbs) ++
        '.'.toUInt8 :: List.replicate (max precision 1) '0'.toUInt8 := by
  have magnitude : |(number : ℚ)| = (number.natAbs : ℕ) := by rw [Nat.cast_natAbs, Int.cast_abs]
  have sign : value.isNegative = decide (number < 0) := by
    rw [(value?_abs holds).1]
    exact decide_eq_decide.mpr Int.cast_lt_zero
  have cuts := exists_cut holds short (by exact_mod_cast below)
  rw [magnitude] at cuts
  obtain ⟨cut, front, behind⟩ := cuts
  obtain ⟨carried, zero⟩ := cut.whole_natCast
  rw [field_of_width_zero, sign, front, carried,
    fractionField_of_eq_zero short (behind.trans zero)]

end FixedPoint

end ByteFormat
