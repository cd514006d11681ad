import ByteFormat.FixedPoint
import ByteFormat.Proofs.Binary64.Arithmetic

/-! # Cutting a magnitude at a decimal place

A magnitude is cut in four rounded steps: half a unit of the last place is computed, it is added,
the integer part is taken off, and the rest is counted in units of the last place. `Biased` holds
the outcome of the first two steps and `Cut` that of all of them, as exact rational numbers; a
double whose magnitude fits into a word is written by such a cut (`exists_cut`). The rest is
arithmetic on the cut. The bias never takes a magnitude down, and takes it up by less than a unit of
the last place if there are places (`Biased.sum_le`), by at most one if there are none. The units of
the fraction never add up to a whole one (`Cut.fraction_lt`), and what is written is off by at most
one unit (`Cut.abs_written_sub_le`).
-/

namespace ByteFormat.FixedPoint

open Binary64

/-- A unit of the last of the given places. -/
def lastPlace (precision : ℕ) : ℚ :=
  1 / 10 ^ precision

private theorem lastPlace_pos (precision : ℕ) : 0 < lastPlace precision := by
  unfold lastPlace
  positivity

private theorem lastPlace_ge {precision : ℕ} (short : precision ≤ 9) :
    1 / 10 ^ 9 ≤ lastPlace precision :=
  one_div_le_one_div_of_le (by positivity) (pow_le_pow_right₀ (by norm_num) short)

theorem lastPlace_le_one (precision : ℕ) : lastPlace precision ≤ 1 :=
  div_le_one_of_le₀ (one_le_pow₀ (by norm_num)) (by positivity)

theorem lastPlace_mul (precision : ℕ) : lastPlace precision * 10 ^ precision = 1 :=
  one_div_mul_cancel (by positivity)

/-- A power of two that exceeds a unit of a decimal place by little is well below it: at no place do
powers of two and of ten come close. -/
private theorem two_zpow_le_of_le {precision : ℕ} (some : precision ≠ 0) (short : precision ≤ 9)
    {exponent : ℤ} (close : 2 ^ exponent ≤ 11 / 10 * lastPlace precision) :
    2 ^ exponent ≤ 49 / 50 * lastPlace precision := by
  have table : ∀ places : Fin 10, places ≠ 0 →
      11 * 2 ^ (Nat.log2 (10 ^ places.val)) < 10 * 10 ^ places.val ∧
        50 * 10 ^ places.val ≤ 49 * 2 ^ (Nat.log2 (10 ^ places.val) + 1) := by
    decide
  obtain ⟨above, below⟩ := table ⟨precision, by omega⟩ (by simpa [Fin.ext_iff] using some)
  generalize Nat.log2 (10 ^ precision) = log at above below
  have above : (11 : ℚ) * 2 ^ log < 10 * 10 ^ precision := by exact_mod_cast above
  have below : (50 : ℚ) * 10 ^ precision ≤ 49 * 2 ^ (log + 1) := by exact_mod_cast below
  unfold lastPlace at *
  by_cases reach : -(log : ℤ) ≤ exponent
  · have large : 1 / 2 ^ log ≤ (2 : ℚ) ^ exponent := by
      rw [one_div, ← zpow_natCast, ← zpow_neg]
      exact zpow_le_zpow_right₀ (by norm_num) reach
    have far : (11 : ℚ) / 10 * (1 / 10 ^ precision) < 1 / 2 ^ log := by
      rw [mul_one_div, div_lt_div_iff₀ (by positivity) (by positivity)]
      linarith
    linarith
  · have small : (2 : ℚ) ^ exponent ≤ 1 / 2 ^ (log + 1) := by
      rw [one_div, ← zpow_natCast, ← zpow_neg]
      exact zpow_le_zpow_right₀ (by norm_num) (by push_cast; omega)
    refine small.trans ?_
    rw [mul_one_div, div_le_div_iff₀ (by positivity) (by positivity)]
    linarith

private theorem value?_scale {precision : ℕ} (short : precision ≤ 15) :
    (scale precision).value? = some (10 ^ precision) := by
  induction precision with
  | zero =>
    have one := value?_ofNat (representable_natCast 1 (by norm_num)) (by norm_num)
    rwa [Nat.cast_one, ← pow_zero 10] at one
  | succ precision ih =>
    have ten : (ofNat 10).value? = some 10 := by
      simpa using value?_ofNat (representable_natCast 10 (by norm_num)) (by norm_num)
    have bound : 10 ^ (precision + 1) ≤ 10 ^ 15 := Nat.pow_le_pow_right (by norm_num) short
    have product := mul_approximates (ih (by omega)) ten (by positivity)
    rw [← pow_succ] at product
    have small : (10 : ℚ) ^ (precision + 1) ≤ 10 ^ 15 := by exact_mod_cast bound
    obtain ⟨rounded, finite, rounds⟩ := product.exists_rounds (by linarith)
    have representable : Representable ((10 : ℚ) ^ (precision + 1)) := by
      exact_mod_cast representable_natCast (10 ^ (precision + 1)) (by omega)
    rw [rounds.eq_self representable] at finite
    exact finite

private theorem value?_half : half.value? = some (1 / 2) := by
  norm_num [half, value?, sign]

/-- Half a unit of the last place, rounded, is half a unit to three decimal digits. -/
private theorem bounds_of_rounds {precision : ℕ} (short : precision ≤ 9) {bias : ℚ}
    (rounds : Rounds (1 / 2 / 10 ^ precision) bias) :
    499 / 1000 * lastPlace precision ≤ bias ∧ bias ≤ 501 / 1000 * lastPlace precision := by
  have error := abs_le.mp (rounds.error (by positivity))
  have half : (1 : ℚ) / 2 / 10 ^ precision = lastPlace precision / 2 := by
    unfold lastPlace
    ring
  have unit := lastPlace_ge short
  have tiny := least_lt
  rw [half] at error
  constructor <;> linarith

/-- A magnitude and half a unit of the last place, added in doubles. -/
structure Biased (magnitude : ℚ) (precision : ℕ) where
  /-- Half a unit of the last place, rounded. -/
  bias : ℚ
  /-- The sum of magnitude and bias, rounded. -/
  sum : ℚ
  representable : Representable magnitude
  short : precision ≤ 9
  bias_rounds : Rounds (1 / 2 / 10 ^ precision) bias
  sum_rounds : Rounds (magnitude + bias) sum
  sum_representable : Representable sum

namespace Biased

variable {magnitude : ℚ} {precision : ℕ} (biased : Biased magnitude precision)

private theorem bias_bounds : 499 / 1000 * lastPlace precision ≤ biased.bias ∧
    biased.bias ≤ 501 / 1000 * lastPlace precision :=
  bounds_of_rounds biased.short biased.bias_rounds

theorem bias_eq_half (none : precision = 0) : biased.bias = 1 / 2 := by
  have rounds := biased.bias_rounds
  have exact : (1 : ℚ) / 2 / 10 ^ precision = (1 : ℕ) * 2 ^ (-1 : ℤ) := by norm_num [none]
  rw [rounds.eq_self ⟨1, -1, by norm_num, by norm_num, exact⟩, exact]
  norm_num

private theorem bias_pos : 0 < biased.bias := by
  have bounds := biased.bias_bounds.1
  have unit := lastPlace_pos precision
  linarith

theorem le_sum : magnitude ≤ biased.sum :=
  biased.sum_rounds.le_of_representable biased.representable
    (le_add_of_nonneg_right biased.bias_pos.le)

/-- The bias is absorbed, unless the doubles are dense enough at the magnitude. -/
private theorem sum_eq_or_spacing_le :
    biased.sum = magnitude ∨ spacing (magnitude + biased.bias) ≤ 2 * biased.bias := by
  rcases lt_or_ge (2 * biased.bias) (spacing (magnitude + biased.bias)) with coarse | dense
  · left
    exact biased.sum_rounds.absorbs biased.representable biased.bias_pos.le coarse
  · exact .inr dense

private theorem sum_le_add_spacing :
    biased.sum ≤ magnitude + biased.bias + spacing (magnitude + biased.bias) / 2 := by
  have error := (abs_le.mp biased.sum_rounds.abs_sub_le).2
  linarith

private theorem sum_le_add_twice : biased.sum ≤ magnitude + 2 * biased.bias := by
  have positive := biased.bias_pos
  rcases biased.sum_eq_or_spacing_le with absorbed | dense
  · linarith
  · have bound := biased.sum_le_add_spacing
    linarith

/-- With places, the bias takes a magnitude up by less than a unit of the last one. -/
theorem sum_le (some : precision ≠ 0) :
    biased.sum ≤ magnitude + 992 / 1000 * lastPlace precision := by
  have unit := lastPlace_pos precision
  have bounds := biased.bias_bounds.2
  rcases biased.sum_eq_or_spacing_le with absorbed | dense
  · linarith
  · have sparse : spacing (magnitude + biased.bias) ≤ 49 / 50 * lastPlace precision :=
      two_zpow_le_of_le some biased.short (by rw [← spacing]; linarith)
    have bound := biased.sum_le_add_spacing
    linarith

private theorem sum_lt (below : magnitude < 2 ^ 64) : biased.sum < 2 ^ 64 := by
  have unit := lastPlace_le_one precision
  have bounds := biased.bias_bounds.2
  rcases biased.sum_eq_or_spacing_le with absorbed | dense
  · rwa [absorbed]
  · have bound := biased.sum_le_add_spacing
    have wide := lt_spacing (magnitude + biased.bias)
    linarith

end Biased

/-- A magnitude cut at the last place, in doubles. -/
structure Cut (magnitude : ℚ) (precision : ℕ) extends Biased magnitude precision where
  /-- What stands behind the point, in units of the last place, rounded. -/
  product : ℚ
  product_rounds : Rounds ((sum - ⌊sum⌋₊) * 10 ^ precision) product

namespace Cut

variable {magnitude : ℚ} {precision : ℕ} (cut : Cut magnitude precision)

def whole : ℕ :=
  ⌊cut.sum⌋₊

def fraction : ℕ :=
  ⌊cut.product⌋₊

/-- What stands behind the point before it is cut. -/
def rest : ℚ :=
  cut.sum - cut.whole

private theorem rest_nonneg : 0 ≤ cut.rest :=
  sub_nonneg.mpr (Nat.floor_le cut.sum_representable.nonneg)

private theorem rest_le : cut.rest ≤ 1 - 1 / 2 ^ 53 :=
  cut.sum_representable.sub_floor_le

theorem product_le : cut.product ≤ cut.rest * 10 ^ precision * (1 + 1 / 2 ^ 53) + least / 2 := by
  have rounds : Rounds (cut.rest * 10 ^ precision) cut.product := cut.product_rounds
  have nonneg : 0 ≤ cut.rest * 10 ^ precision := mul_nonneg cut.rest_nonneg (by positivity)
  have error := (abs_le.mp (rounds.error nonneg)).2
  linarith

/-- The product never reaches a whole unit: the rest falls short of it by as much as rounding can
add, and more. -/
private theorem product_lt : cut.product < 10 ^ precision := by
  have power : (1 : ℚ) ≤ 10 ^ precision := one_le_pow₀ (by norm_num)
  have gap : cut.rest * 10 ^ precision ≤ (1 - 1 / 2 ^ 53) * 10 ^ precision :=
    mul_le_mul_of_nonneg_right cut.rest_le (by positivity)
  have bound := cut.product_le
  have tiny := least_lt
  linarith

/-- The fraction has no more digits than there are places. -/
theorem fraction_lt : cut.fraction < 10 ^ precision :=
  (Nat.floor_lt cut.product_rounds.nonneg).mpr (by exact_mod_cast cut.product_lt)

/-- The fraction is cut, never rounded up by a unit. -/
private theorem rest_lt : cut.rest * 10 ^ precision < cut.fraction + 1 := by
  have fits : cut.fraction + 1 < 2 ^ 53 := by
    have power : 10 ^ precision ≤ 10 ^ 9 := Nat.pow_le_pow_right (by norm_num) cut.short
    have small := cut.fraction_lt
    omega
  by_contra reached
  have kept : ((cut.fraction + 1 : ℕ) : ℚ) ≤ cut.product :=
    cut.product_rounds.le_of_representable (representable_natCast _ fits)
      (by push_cast; exact not_lt.mp reached)
  have above := Nat.lt_floor_add_one cut.product
  push_cast at kept
  exact absurd above (not_lt.mpr kept)

def written : ℚ :=
  cut.whole + cut.fraction * lastPlace precision

private theorem sum_eq : cut.sum = cut.whole + cut.rest := by
  unfold rest
  ring

/-- The cut takes less than a unit of the last place off the sum. -/
theorem sum_lt_written_add : cut.sum < cut.written + lastPlace precision := by
  have scaled := mul_lt_mul_of_pos_right cut.rest_lt (lastPlace_pos precision)
  rw [mul_assoc, mul_comm (10 ^ precision), lastPlace_mul, mul_one] at scaled
  rw [cut.sum_eq, written]
  linarith

/-- The fraction exceeds what stands behind the point by no more than its rounding can add. -/
private theorem fraction_mul_le : cut.fraction * lastPlace precision ≤
    cut.rest * (1 + 1 / 2 ^ 53) + least / 2 * lastPlace precision := by
  have floor : (cut.fraction : ℚ) ≤ cut.product := Nat.floor_le cut.product_rounds.nonneg
  calc cut.fraction * lastPlace precision
      ≤ (cut.rest * 10 ^ precision * (1 + 1 / 2 ^ 53) + least / 2) * lastPlace precision :=
        mul_le_mul_of_nonneg_right (floor.trans cut.product_le) (lastPlace_pos precision).le
    _ = cut.rest * (1 + 1 / 2 ^ 53) * (lastPlace precision * 10 ^ precision) +
          least / 2 * lastPlace precision := by ring
    _ = cut.rest * (1 + 1 / 2 ^ 53) + least / 2 * lastPlace precision := by
        rw [lastPlace_mul, mul_one]

/-- What is written exceeds the magnitude by at most a unit of the last place. -/
theorem written_le : cut.written ≤ magnitude + lastPlace precision := by
  have split := cut.sum_eq
  by_cases none : precision = 0
  · -- Nothing is written behind the point, and the bias adds at most one.
    have digits := cut.fraction_lt
    have zero : cut.fraction = 0 := by simpa [none] using digits
    have whole : lastPlace precision = 1 := by simp [lastPlace, none]
    have bound := cut.sum_le_add_twice
    rw [cut.bias_eq_half none] at bound
    have behind := cut.rest_nonneg
    rw [written, zero, whole]
    push_cast
    linarith
  · -- The bias leaves room for the rounding of the fraction.
    have upper := cut.fraction_mul_le
    have bound := cut.sum_le none
    have least : least / 2 * lastPlace precision ≤ 1 / 2 ^ 200 * lastPlace precision :=
      mul_le_mul_of_nonneg_right (by linarith [least_lt, least_pos]) (lastPlace_pos precision).le
    have wide := lastPlace_ge cut.short
    have behind := cut.rest_le
    rw [written]
    linarith

/-- What is written is off by at most a unit of the last place. -/
theorem abs_written_sub_le : |cut.written - magnitude| ≤ lastPlace precision := by
  have rises := cut.le_sum
  have below := cut.sum_lt_written_add
  have above := cut.written_le
  rw [abs_le]
  constructor <;> linarith

end Cut

/-- Half a unit of the last place is computed without overflow. -/
theorem exists_bias {precision : ℕ} (short : precision ≤ 9) :
    ∃ bias, (half.div (scale precision)).value? = some bias ∧
      Rounds (1 / 2 / 10 ^ precision) bias := by
  have quotient := div_approximates value?_half (value?_scale (by omega : precision ≤ 15))
    (by positivity) (by positivity)
  apply quotient.exists_rounds
  have unit := lastPlace_le_one precision
  unfold lastPlace at unit
  calc (1 : ℚ) / 2 / 10 ^ precision = 1 / 2 * (1 / 10 ^ precision) := by ring
    _ < 2 ^ 100 := by linarith

section

variable {value : Binary64} {number : ℚ} (finite : value.value? = some number)
  {precision : ℕ} (short : precision ≤ 9)

include finite short

/-- The biased magnitude of a finite double approximates the sum of magnitude and bias. -/
theorem biased_approximates :
    ∃ bias, Rounds (1 / 2 / 10 ^ precision) bias ∧
      (biased value precision).Approximates (|number| + bias) := by
  obtain ⟨bias, computed, rounds⟩ := exists_bias short
  exact ⟨bias, rounds, add_approximates (value?_abs finite).2 computed
    (add_nonneg (abs_nonneg number) rounds.nonneg)⟩

/-- A double whose magnitude fits into a word is written as its magnitude is cut. -/
theorem exists_cut (below : |number| < 2 ^ 64) :
    ∃ cut : Cut |number| precision,
      (whole value precision).toNat = cut.whole ∧
        (fraction value precision).toNat = cut.fraction := by
  obtain ⟨bias, rounds, approximates⟩ := biased_approximates finite short
  have bounds := (bounds_of_rounds short rounds).2
  have unit := lastPlace_le_one precision
  obtain ⟨sum, sumFinite, sumRounds⟩ := approximates.exists_rounds (by linarith)
  have sumNonneg := sumRounds.nonneg
  have sumRepresentable : Representable sum := by
    simpa only [abs_of_nonneg sumNonneg] using representable_abs sumFinite
  let biased : Biased |number| precision :=
    { bias, sum, short, representable := representable_abs finite, bias_rounds := rounds
      sum_rounds := sumRounds, sum_representable := sumRepresentable }
  have fits : sum < 2 ^ 64 := biased.sum_lt below
  have rest := value?_sub_whole sumFinite sumNonneg fits
  have restNonneg : 0 ≤ sum - ⌊sum⌋₊ := sub_nonneg.mpr (Nat.floor_le sumNonneg)
  have restLt : sum - ⌊sum⌋₊ ≤ 1 := by linarith [sumRepresentable.sub_floor_le]
  have power : (10 : ℚ) ^ precision ≤ 10 ^ 9 := pow_le_pow_right₀ (by norm_num) short
  have scaled : (sum - ⌊sum⌋₊) * 10 ^ precision ≤ 1 * 10 ^ precision :=
    mul_le_mul_of_nonneg_right restLt (by positivity)
  have multiplied := mul_approximates rest (value?_scale (by omega : precision ≤ 15))
    (mul_nonneg restNonneg (by positivity))
  obtain ⟨product, productFinite, productRounds⟩ := multiplied.exists_rounds (by linarith)
  let cut : Cut |number| precision := { biased with product, product_rounds := productRounds }
  refine ⟨cut, toNat_toUInt64 sumFinite sumNonneg fits, ?_⟩
  have small : product < 10 ^ precision := cut.product_lt
  exact toNat_toUInt64 productFinite productRounds.nonneg (by linarith)

end

end ByteFormat.FixedPoint
