import ByteFormat.Binary64.Arithmetic
import ByteFormat.Proofs.Binary64.Rounding

/-! # Arithmetic on the values of doubles

Where the exact result of an operation is not negative, the operation approximates it
(`add_approximates`, `mul_approximates`, `div_approximates`). Conversion to a word takes the integer
part of a value that fits (`toNat_toUInt64`), and taking that part off a double is exact
(`value?_sub_whole`): what is left of the bits of a double still fits into a double.
-/

namespace ByteFormat.Binary64

@[simp] theorem sign_bne (left right : Bool) : sign (left != right) = sign left * sign right := by
  cases left <;> cases right <;> norm_num [sign]

@[simp] theorem abs_sign (negative : Bool) : |sign negative| = 1 := by
  cases negative <;> norm_num [sign]

@[simp] theorem value?_zero (negative : Bool) : (zero negative).value? = some 0 := by
  simp [zero, value?]

@[simp] theorem value?_neg (double : Binary64) : double.neg.value? = double.value?.map (- ·) := by
  cases double with
  | nan => rfl
  | infinite negative => rfl
  | finite negative significand exponent canonical => cases negative <;> simp [neg, value?, sign]

theorem representable_abs {double : Binary64} {value : ℚ} (finite : double.value? = some value) :
    Representable |value| := by
  cases double with
  | finite negative significand exponent canonical =>
    cases finite
    refine ⟨significand, exponent, canonical.1, canonical.2.1, ?_⟩
    rw [abs_mul, abs_sign, one_mul, abs_of_nonneg (by positivity)]
  | _ => cases finite

theorem value?_abs {double : Binary64} {value : ℚ} (finite : double.value? = some value) :
    double.isNegative = decide (value < 0) ∧
      (if double.isNegative then double.neg else double).value? = some |value| := by
  have negated : double.neg.value? = some (-value) := by rw [value?_neg, finite, Option.map_some]
  have below : double.isNegative = decide (value < 0) := by
    cases double with
    | finite negative significand exponent canonical =>
      cases finite
      have power : (0 : ℚ) < 2 ^ exponent := zpow_pos (by norm_num) _
      have magnitude : 0 ≤ (significand : ℚ) * 2 ^ exponent := by positivity
      cases negative with
      | false => simp [isNegative, sign, not_lt.mpr magnitude]
      | true =>
        by_cases none : significand = 0 <;>
          simp [isNegative, sign, power, none, Nat.pos_iff_ne_zero]
    | _ => cases finite
  refine ⟨below, ?_⟩
  by_cases negative : value < 0
  · rw [below, decide_eq_true negative, if_pos rfl, negated, abs_of_neg negative]
  · rw [below, decide_eq_false negative, if_neg Bool.false_ne_true, finite,
      abs_of_nonneg (not_lt.mp negative)]

private theorem ofQuotient_true (numerator denominator : ℕ) :
    ofQuotient true numerator denominator = (ofQuotient false numerator denominator).neg := by
  have parts (significand : ℕ) (exponent : ℤ) :
      ofParts true significand exponent = (ofParts false significand exponent).neg := by
    by_cases canonical : Canonical significand exponent <;> simp [ofParts, canonical, neg]
  by_cases none : numerator = 0
  · simp [ofQuotient, none, zero, neg]
  · simp only [ofQuotient, if_neg none, parts]
    split <;> rfl

/-- A quotient with a sign is approximated if it is not negative: a negative sign stands at a zero.
-/
private theorem ofQuotient_approximates_signed {negative : Bool} {numerator denominator : ℕ}
    (proper : 0 < denominator)
    (nonneg : 0 ≤ sign negative * ((numerator : ℚ) / denominator)) :
    (ofQuotient negative numerator denominator).Approximates
      (sign negative * (numerator / denominator)) := by
  cases negative with
  | false =>
    rw [sign, if_neg Bool.false_ne_true, one_mul]
    exact ofQuotient_approximates numerator proper
  | true =>
    have none : numerator = 0 := by
      by_contra some
      have positive : (0 : ℚ) < numerator / denominator := by positivity
      simp only [sign, if_true] at nonneg
      linarith
    subst none
    left
    exact ⟨0, by simp [ofQuotient], 0, by simp, by simp, by simp⟩

theorem ofScaled_approximates {negative : Bool} {significand : ℕ} {exponent : ℤ}
    (nonneg : 0 ≤ sign negative * (significand * 2 ^ exponent)) :
    (ofScaled negative significand exponent).Approximates
      (sign negative * (significand * 2 ^ exponent)) := by
  have quotient := shift_div_shift significand 1 exponent
  rw [Nat.cast_one, div_one] at quotient
  rw [← quotient] at nonneg ⊢
  exact ofQuotient_approximates_signed (by rw [Nat.shiftLeft_eq]; positivity) nonneg

private theorem cast_signed (negative : Bool) (magnitude : ℕ) :
    ((signed negative magnitude : ℤ) : ℚ) = sign negative * magnitude := by
  cases negative <;> simp [signed, sign]

private theorem signed_shift (negative : Bool) (significand : ℕ) {unit exponent : ℤ}
    (finer : unit ≤ exponent) :
    ((signed negative (significand <<< (exponent - unit).toNat) : ℤ) : ℚ) * 2 ^ unit =
      sign negative * (significand * 2 ^ exponent) := by
  rw [cast_signed, Nat.shiftLeft_eq, two_zpow_eq_mul finer]
  push_cast
  ring

section Operations

variable {left right : Binary64} {first second : ℚ} (leftFinite : left.value? = some first)
  (rightFinite : right.value? = some second)

include leftFinite rightFinite

theorem mul_approximates (nonneg : 0 ≤ first * second) :
    (left.mul right).Approximates (first * second) := by
  cases left with
  | finite leftSign significand exponent canonical =>
    cases right with
    | finite rightSign significand' exponent' canonical' =>
      cases leftFinite
      cases rightFinite
      have product : sign leftSign * (significand * 2 ^ exponent) *
          (sign rightSign * (significand' * 2 ^ exponent')) =
            sign (leftSign != rightSign) *
              ((significand * significand' : ℕ) * 2 ^ (exponent + exponent')) := by
        rw [sign_bne, zpow_add₀ (by norm_num)]
        push_cast
        ring
      rw [product] at nonneg ⊢
      exact ofScaled_approximates nonneg
    | _ => cases rightFinite
  | _ => cases leftFinite

theorem div_approximates (nonzero : second ≠ 0) (nonneg : 0 ≤ first / second) :
    (left.div right).Approximates (first / second) := by
  cases left with
  | finite leftSign significand exponent canonical =>
    cases right with
    | finite rightSign significand' exponent' canonical' =>
      cases leftFinite
      cases rightFinite
      have proper : significand' ≠ 0 := by
        rintro rfl
        simp at nonzero
      have quotient : sign leftSign * (significand * 2 ^ exponent) /
          (sign rightSign * (significand' * 2 ^ exponent')) =
            sign (leftSign != rightSign) *
              ((significand <<< (exponent - exponent').toNat : ℕ) /
                (significand' <<< (exponent' - exponent).toNat : ℕ)) := by
        have shifted := shift_div_shift significand significand' (exponent - exponent')
        rw [Int.neg_sub] at shifted
        rw [shifted, sign_bne, zpow_sub₀ (by norm_num)]
        cases leftSign <;> cases rightSign <;>
          simp only [sign, if_true, Bool.false_eq_true, if_false] <;> ring
      rw [quotient] at nonneg ⊢
      rw [div, if_neg proper]
      exact ofQuotient_approximates_signed
        (by rw [Nat.shiftLeft_eq]; have := Nat.pos_of_ne_zero proper; positivity) nonneg
    | _ => cases rightFinite
  | _ => cases leftFinite

theorem add_approximates (nonneg : 0 ≤ first + second) :
    (left.add right).Approximates (first + second) := by
  cases left with
  | finite leftSign significand exponent canonical =>
    cases right with
    | finite rightSign significand' exponent' canonical' =>
      cases leftFinite
      cases rightFinite
      have sum := congrArg₂ (· + ·)
        (signed_shift leftSign significand (min_le_left exponent exponent'))
        (signed_shift rightSign significand' (min_le_right exponent exponent'))
      simp only [← add_mul, ← Int.cast_add] at sum
      rw [← sum] at nonneg ⊢
      simp only [add]
      generalize signed leftSign _ + signed rightSign _ = total at nonneg ⊢
      have unit : (0 : ℚ) < 2 ^ min exponent exponent' := zpow_pos (by norm_num) _
      split
      · next cancels =>
        left
        exact ⟨0, value?_zero _, 0, by simp, by simp [cancels], by simp [cancels]⟩
      · next remains =>
        have positive : 0 < total := by
          have : (0 : ℚ) ≤ total := nonneg_of_mul_nonneg_left nonneg unit
          have : 0 ≤ total := by exact_mod_cast this
          omega
        have magnitude : ((total.natAbs : ℕ) : ℚ) = total := by
          rw [Nat.cast_natAbs, abs_of_pos positive]
        have exact : sign false * ((total.natAbs : ℕ) * 2 ^ min exponent exponent') =
            (total : ℚ) * 2 ^ min exponent exponent' := by
          rw [sign, if_neg Bool.false_ne_true, one_mul, magnitude]
        rw [← exact] at nonneg ⊢
        rw [decide_eq_false (by omega)]
        exact ofScaled_approximates nonneg
    | _ => cases rightFinite
  | _ => cases leftFinite

end Operations

theorem value?_ofNat {value : ℕ} (representable : Representable value)
    (below : (value : ℚ) < 2 ^ 100) : (ofNat value).value? = some (value : ℚ) := by
  have approximates := ofQuotient_approximates value Nat.one_pos
  rw [Nat.cast_one, div_one] at approximates
  obtain ⟨rounded, finite, rounds⟩ := approximates.exists_rounds below
  rw [ofNat, finite, rounds.eq_self representable]

/-- Integers with 53 bits are converted exactly. -/
theorem value?_ofInt {value : ℤ} (representable : Representable |(value : ℚ)|)
    (below : |(value : ℚ)| < 2 ^ 100) : (ofInt value).value? = some (value : ℚ) := by
  have magnitude : ((value.natAbs : ℕ) : ℚ) = |(value : ℚ)| := by
    rw [Nat.cast_natAbs, Int.cast_abs]
  have natural : (ofNat value.natAbs).value? = some |(value : ℚ)| := by
    rw [← magnitude] at representable below ⊢
    exact value?_ofNat representable below
  by_cases negative : value < 0
  · have negative' : (value : ℚ) < 0 := by exact_mod_cast negative
    rw [ofInt, decide_eq_true negative, ofQuotient_true, value?_neg]
    change (ofNat value.natAbs).value?.map (- ·) = _
    rw [natural, abs_of_neg negative', Option.map_some, Rat.neg_neg]
  · have nonneg : 0 ≤ (value : ℚ) := by exact_mod_cast not_lt.mp negative
    rw [ofInt, decide_eq_false negative]
    change (ofNat value.natAbs).value? = _
    rw [natural, abs_of_nonneg nonneg]

theorem integerPart_eq_floor (significand : ℕ) (exponent : ℤ) :
    integerPart significand exponent = ⌊(significand : ℚ) * 2 ^ exponent⌋₊ := by
  have shifted := shift_div_shift significand 1 exponent
  rw [Nat.cast_one, div_one] at shifted
  rw [← shifted, Nat.floor_div_eq_div, integerPart, Nat.shiftRight_eq_div_pow, Nat.one_shiftLeft]

section Conversion

variable {double : Binary64} {value : ℚ} (finite : double.value? = some value)

include finite

/-- A finite value is cut towards zero and then clamped. -/
theorem truncate_eq (low high : ℤ) :
    double.truncate low high = max low (min high (if value < 0 then ⌈value⌉ else ⌊value⌋)) := by
  cases double with
  | finite negative significand exponent canonical =>
    cases finite
    have magnitude : 0 ≤ (significand : ℚ) * 2 ^ exponent := by positivity
    rw [truncate, integerPart_eq_floor]
    cases negative with
    | false =>
      simp [signed, sign, not_lt.mpr magnitude, Int.natCast_floor_eq_floor magnitude]
    | true =>
      rcases magnitude.eq_or_lt with none | positive
      · simp [signed, sign, ← none]
      · simp [signed, sign, positive, Int.ceil_neg, Int.natCast_floor_eq_floor magnitude]
  | _ => cases finite

/-- A finite value that is not negative is clamped to its integer part. -/
theorem truncate_eq_floor (nonneg : 0 ≤ value) (high : ℤ) :
    double.truncate 0 high = max 0 (min high ⌊value⌋₊) := by
  rw [truncate_eq finite, if_neg (not_lt.mpr nonneg), Int.natCast_floor_eq_floor nonneg]

/-- A value that fits into a word is converted to its integer part. -/
theorem toNat_toUInt64 (nonneg : 0 ≤ value) (below : value < 2 ^ 64) :
    double.toUInt64.toNat = ⌊value⌋₊ := by
  have fits : ⌊value⌋₊ < 2 ^ 64 := (Nat.floor_lt nonneg).mpr (by exact_mod_cast below)
  rw [toUInt64, truncate_eq_floor finite nonneg, UInt64.toNat_ofNat']
  omega

/-- A value that does not fit into a word is converted to the largest word. -/
theorem toNat_toUInt64_of_ge (above : 2 ^ 64 ≤ value) :
    double.toUInt64.toNat = 18446744073709551615 := by
  have nonneg : 0 ≤ value := (by norm_num : (0 : ℚ) ≤ 2 ^ 64).trans above
  have large : 2 ^ 64 ≤ ⌊value⌋₊ := Nat.le_floor (by exact_mod_cast above)
  rw [toUInt64, truncate_eq_floor finite nonneg, UInt64.toNat_ofNat']
  omega

end Conversion

namespace Representable

variable {value : ℚ} (representable : Representable value)

include representable

/-- A number with 53 bits is whole, or its bits are those in front of its point and those behind
it. -/
private theorem whole_or_split :
    value = ⌊value⌋₊ ∨ ∃ significand places : ℕ, significand < 2 ^ 53 ∧ places ≤ 1074 ∧
      ⌊value⌋₊ = significand / 2 ^ places ∧
        value - ⌊value⌋₊ = (significand % 2 ^ places : ℕ) / 2 ^ places := by
  obtain ⟨significand, exponent, short, lowest, rfl⟩ := representable
  rcases le_or_gt 0 exponent with large | small
  · left
    obtain ⟨shift, rfl⟩ := Int.eq_ofNat_of_zero_le large
    have natural : (significand : ℚ) * 2 ^ (shift : ℤ) = (significand * 2 ^ shift : ℕ) := by
      push_cast
      rfl
    rw [natural, Nat.floor_natCast]
  · right
    obtain ⟨places, rfl⟩ := Int.exists_eq_neg_ofNat small.le
    have quotient : (significand : ℚ) * 2 ^ (-(places : ℤ)) = significand / (2 ^ places : ℕ) := by
      rw [zpow_neg, zpow_natCast, ← div_eq_mul_inv]
      push_cast
      rfl
    refine ⟨significand, places, short, by omega, ?_, ?_⟩
    · rw [quotient, Nat.floor_div_eq_div]
    · rw [quotient, Nat.floor_div_eq_div]
      have division : ((2 ^ places : ℕ) : ℚ) * (significand / 2 ^ places : ℕ) +
          (significand % 2 ^ places : ℕ) = significand := by
        exact_mod_cast Nat.div_add_mod significand (2 ^ places)
      have unit : ((2 ^ places : ℕ) : ℚ) ≠ 0 := by positivity
      rw [← division]
      push_cast at unit ⊢
      field_simp
      ring

theorem floor : Representable (⌊value⌋₊ : ℚ) := by
  rcases representable.whole_or_split with whole | ⟨significand, places, short, _, front, _⟩
  · rwa [← whole]
  · rw [front]
    exact representable_natCast _ ((Nat.div_le_self ..).trans_lt short)

private theorem sub_floor : Representable (value - ⌊value⌋₊) := by
  rcases representable.whole_or_split with whole | ⟨significand, places, short, few, _, behind⟩
  · rw [← whole, sub_self]
    exact_mod_cast representable_natCast 0 (by norm_num)
  · refine ⟨significand % 2 ^ places, -places, (Nat.mod_le ..).trans_lt short, by omega, ?_⟩
    rw [behind, zpow_neg, zpow_natCast, ← div_eq_mul_inv]

/-- What stands behind the point of a number with 53 bits does not come close to one. -/
theorem sub_floor_le : value - ⌊value⌋₊ ≤ 1 - 1 / 2 ^ 53 := by
  rcases representable.whole_or_split with whole | ⟨significand, places, short, _, _, behind⟩
  · rw [← whole, sub_self]
    norm_num
  · have unit : (0 : ℚ) < 2 ^ places := by positivity
    rw [behind, div_le_iff₀ unit]
    rcases le_or_gt places 53 with coarse | fine
    · -- All places are there, so the last one is missing from the next whole number.
      have rest : ((significand % 2 ^ places : ℕ) : ℚ) + 1 ≤ 2 ^ places := by
        exact_mod_cast Nat.mod_lt significand (Nat.two_pow_pos places)
      have last : (2 : ℚ) ^ places ≤ 2 ^ 53 := pow_le_pow_right₀ (by norm_num) coarse
      linarith
    · -- The significand is too short to reach the first place.
      have rest : ((significand % 2 ^ places : ℕ) : ℚ) ≤ 2 ^ 53 := by
        exact_mod_cast (Nat.mod_le ..).trans short.le
      have first : (2 : ℚ) ^ 54 ≤ 2 ^ places := pow_le_pow_right₀ (by norm_num) fine
      linarith

end Representable

/-- Taking its integer part off a double is exact. -/
theorem value?_sub_whole {double : Binary64} {value : ℚ} (finite : double.value? = some value)
    (nonneg : 0 ≤ value) (below : value < 2 ^ 64) :
    (double.sub (ofNat double.toUInt64.toNat)).value? = some (value - ⌊value⌋₊) := by
  have representable : Representable value := by
    simpa only [abs_of_nonneg nonneg] using representable_abs finite
  have floorLe := Nat.floor_le nonneg
  have whole : (ofNat double.toUInt64.toNat).value? = some (⌊value⌋₊ : ℚ) := by
    rw [toNat_toUInt64 finite nonneg below]
    exact value?_ofNat representable.floor (by linarith)
  have negated : (ofNat double.toUInt64.toNat).neg.value? = some (-(⌊value⌋₊ : ℚ)) := by
    rw [value?_neg, whole, Option.map_some]
  have difference := add_approximates finite negated (by linarith)
  rw [← sub_eq_add_neg] at difference
  obtain ⟨rounded, computed, rounds⟩ := difference.exists_rounds (by linarith)
  rw [sub, computed, rounds.eq_self representable.sub_floor]

end ByteFormat.Binary64
