import ByteFormat.Binary64.Rounding
import Mathlib.Algebra.Order.Field.Power
import Mathlib.Algebra.Order.Floor.Semifield
import Mathlib.Data.Int.Log
import Mathlib.Data.Rat.Floor
import Mathlib.Tactic.FieldSimp
import Mathlib.Tactic.Linarith
import Mathlib.Tactic.NormNum
import Mathlib.Tactic.Positivity
import Mathlib.Tactic.Ring

/-! # Rounding of exact magnitudes

An exact magnitude is rounded on a grid: its spacing is a power of two that leaves 53 bits to the
magnitude, and never falls below the least double. `Rounds` says that a number is the grid point
nearest to an exact one, a half going to the even neighbour. All that later proofs use of rounding
is derived from it: the size of the error (`Rounds.error`), that numbers with 53 bits are kept
(`Rounds.eq_self`) and never crossed (`Rounds.le_of_representable`), and that less than half a
spacing on top of one is absorbed (`Rounds.absorbs`). The double nearest to a quotient is such a
number, or infinite beyond the last binade (`ofQuotient_approximates`).
-/

namespace ByteFormat.Binary64

/-- The exponent of the grid on which a magnitude is rounded. -/
def gridExponent (exact : ℚ) : ℤ :=
  max (-1074) (Int.log 2 exact - 52)

/-- The distance of neighbouring points of the grid on which a magnitude is rounded. -/
def spacing (exact : ℚ) : ℚ :=
  2 ^ gridExponent exact

def least : ℚ :=
  2 ^ (-1074 : ℤ)

/-- A natural number is nearest to an exact one, and even where two are equally near. -/
structure IsNearest (exact : ℚ) (nearest : ℕ) : Prop where
  error : |exact - nearest| ≤ 1 / 2
  even : |exact - nearest| = 1 / 2 → nearest % 2 = 0

/-- A number is the point of the grid nearest to an exact magnitude. -/
def Rounds (exact rounded : ℚ) : Prop :=
  ∃ steps : ℕ, rounded = steps * spacing exact ∧ IsNearest (exact / spacing exact) steps

/-- A magnitude that has at most 53 bits and is a multiple of the least double. -/
def Representable (value : ℚ) : Prop :=
  ∃ (significand : ℕ) (exponent : ℤ),
    significand < 2 ^ 53 ∧ -1074 ≤ exponent ∧ value = significand * 2 ^ exponent

theorem spacing_pos (exact : ℚ) : 0 < spacing exact :=
  zpow_pos (by norm_num) _

theorem least_pos : 0 < least :=
  zpow_pos (by norm_num) _

theorem least_lt : least < 1 / 2 ^ 200 := by
  have small : least < 2 ^ (-200 : ℤ) := zpow_lt_zpow_right₀ (by norm_num) (by norm_num)
  rwa [zpow_neg, ← one_div] at small

theorem two_zpow_eq_mul {low high : ℤ} (ordered : low ≤ high) :
    (2 : ℚ) ^ high = (2 ^ (high - low).toNat : ℕ) * 2 ^ low := by
  rw [Nat.cast_pow, Nat.cast_ofNat, ← zpow_natCast, Int.toNat_of_nonneg (by omega),
    ← zpow_add₀ (by norm_num), sub_add_cancel]

private theorem two_zpow_sub (first second : ℕ) :
    (2 : ℚ) ^ ((first : ℤ) - second) = 2 ^ first / 2 ^ second := by
  rw [zpow_sub₀ (by norm_num), zpow_natCast, zpow_natCast]

private theorem two_zpow_eq_div (exponent : ℤ) :
    (2 : ℚ) ^ exponent = 2 ^ exponent.toNat / 2 ^ (-exponent).toNat := by
  rw [← two_zpow_sub, Int.toNat_sub_toNat_neg]

private theorem gridExponent_ge (exact : ℚ) : -1074 ≤ gridExponent exact :=
  le_max_left ..

/-- A magnitude has fewer than 54 bits on its grid. -/
theorem lt_spacing (exact : ℚ) : exact < 2 ^ 53 * spacing exact := by
  have above := Int.lt_zpow_succ_log_self (b := 2) (by norm_num) exact
  have split : (2 : ℚ) ^ 53 * spacing exact = 2 ^ (53 + gridExponent exact) := by
    rw [spacing, ← zpow_natCast, ← zpow_add₀ (by norm_num)]
    rfl
  rw [split]
  apply above.trans_le
  push_cast
  apply zpow_le_zpow_right₀ (by norm_num)
  have := le_max_right (-1074) (Int.log 2 exact - 52)
  unfold gridExponent
  omega

/-- A positive magnitude has 53 bits on its grid, unless that is the finest one. -/
private theorem spacing_le_or {exact : ℚ} (positive : 0 < exact) :
    gridExponent exact = -1074 ∨ 2 ^ 52 * spacing exact ≤ exact := by
  by_cases normal : -1074 ≤ Int.log 2 exact - 52
  · right
    have below := Int.zpow_log_le_self (b := 2) (by norm_num) positive
    have split : (2 : ℚ) ^ 52 * spacing exact = 2 ^ (52 + gridExponent exact) := by
      rw [spacing, ← zpow_natCast, ← zpow_add₀ (by norm_num)]
      rfl
    have exponent : 52 + gridExponent exact = Int.log 2 exact := by
      rw [gridExponent, max_eq_right normal]
      omega
    rw [split, exponent]
    exact_mod_cast below
  · left
    exact max_eq_left (by omega)

/-- The grid is fine in proportion to the magnitude, down to the least double. -/
private theorem spacing_le {exact : ℚ} (positive : 0 < exact) :
    spacing exact ≤ exact / 2 ^ 52 + least := by
  rcases spacing_le_or positive with finest | proportional
  · have quotient : 0 ≤ exact / 2 ^ 52 := by positivity
    rw [spacing, finest]
    exact le_add_of_nonneg_left quotient
  · have quotient : spacing exact ≤ exact / 2 ^ 52 := by
      rw [le_div_iff₀ (by positivity), mul_comm]
      exact proportional
    exact quotient.trans (le_add_of_nonneg_right least_pos.le)

theorem Representable.nonneg {value : ℚ} (representable : Representable value) : 0 ≤ value := by
  obtain ⟨significand, exponent, _, _, rfl⟩ := representable
  positivity

theorem representable_natCast (value : ℕ) (short : value < 2 ^ 53) : Representable value :=
  ⟨value, 0, short, by norm_num, by simp⟩

/-- A number with 53 bits lies on the grid of any magnitude, or else below the binade of the
magnitude, by at least half a spacing. -/
private theorem Representable.on_grid_or_below {value exact : ℚ}
    (representable : Representable value) (positive : 0 < exact) :
    (∃ steps : ℕ, value = steps * spacing exact) ∨
      value ≤ (2 ^ 52 - 1 / 2) * spacing exact ∧ 2 ^ 52 * spacing exact ≤ exact := by
  obtain ⟨significand, exponent, short, least, rfl⟩ := representable
  by_cases coarse : gridExponent exact ≤ exponent
  · left
    refine ⟨significand * 2 ^ (exponent - gridExponent exact).toNat, ?_⟩
    rw [two_zpow_eq_mul coarse, spacing]
    push_cast
    ring
  · right
    have binade : 2 ^ 52 * spacing exact ≤ exact :=
      (spacing_le_or positive).resolve_left (by omega)
    refine ⟨?_, binade⟩
    have bits : (significand : ℚ) ≤ 2 ^ 53 - 1 := by
      have : (significand : ℚ) + 1 ≤ 2 ^ 53 := by exact_mod_cast short
      linarith
    have scale : (2 : ℚ) ^ exponent ≤ spacing exact / 2 := by
      have halved : spacing exact / 2 = 2 ^ (gridExponent exact - 1) := by
        rw [zpow_sub_one₀ (by norm_num), spacing, div_eq_mul_inv]
      rw [halved]
      exact zpow_le_zpow_right₀ (by norm_num) (by omega)
    calc (significand : ℚ) * 2 ^ exponent
        ≤ (2 ^ 53 - 1) * (spacing exact / 2) :=
          mul_le_mul bits scale (by positivity) (by norm_num)
      _ = (2 ^ 52 - 1 / 2) * spacing exact := by ring

namespace IsNearest

variable {exact : ℚ} {nearest : ℕ}

private theorem eq_of_lt (rounded : IsNearest exact nearest) {candidate : ℕ}
    (close : |exact - candidate| < 1 / 2) : nearest = candidate := by
  have error := abs_le.mp rounded.error
  have gap := abs_lt.mp close
  have above : (nearest : ℚ) < candidate + 1 := by linarith
  have below : (candidate : ℚ) < nearest + 1 := by linarith
  have : nearest < candidate + 1 := by exact_mod_cast above
  have : candidate < nearest + 1 := by exact_mod_cast below
  omega

private theorem le_of_le (rounded : IsNearest exact nearest) {candidate : ℕ}
    (below : (candidate : ℚ) ≤ exact) : candidate ≤ nearest := by
  have error := abs_le.mp rounded.error
  have close : (candidate : ℚ) < nearest + 1 := by linarith
  have : candidate < nearest + 1 := by exact_mod_cast close
  omega

private theorem ge_of_ge (rounded : IsNearest exact nearest) {candidate : ℕ}
    (above : exact ≤ candidate) : nearest ≤ candidate := by
  have error := abs_le.mp rounded.error
  have close : (nearest : ℚ) < candidate + 1 := by linarith
  have : nearest < candidate + 1 := by exact_mod_cast close
  omega

end IsNearest

namespace Rounds

variable {exact rounded : ℚ}

theorem nonneg (rounding : Rounds exact rounded) : 0 ≤ rounded := by
  obtain ⟨steps, rfl, _⟩ := rounding
  have := spacing_pos exact
  positivity

/-- Rounding is off by at most half a spacing. -/
theorem abs_sub_le (rounding : Rounds exact rounded) :
    |rounded - exact| ≤ spacing exact / 2 := by
  obtain ⟨steps, rfl, nearest⟩ := rounding
  have positive := spacing_pos exact
  have scaled : steps * spacing exact - exact =
      -(exact / spacing exact - steps) * spacing exact := by
    field_simp
    ring
  rw [scaled, abs_mul, abs_neg, abs_of_pos positive]
  calc |exact / spacing exact - steps| * spacing exact
      ≤ 1 / 2 * spacing exact := mul_le_mul_of_nonneg_right nearest.error positive.le
    _ = spacing exact / 2 := by ring

private theorem eq_zero (rounding : Rounds 0 rounded) : rounded = 0 := by
  obtain ⟨steps, rfl, nearest⟩ := rounding
  have none : steps = 0 := nearest.eq_of_lt (by simp)
  simp [none]

/-- The error is small in proportion to the magnitude, down to half the least double. -/
theorem error (rounding : Rounds exact rounded) (nonneg : 0 ≤ exact) :
    |rounded - exact| ≤ exact / 2 ^ 53 + least / 2 := by
  rcases nonneg.eq_or_lt with rfl | positive
  · rw [rounding.eq_zero, sub_self, abs_zero, zero_div, zero_add]
    exact (half_pos least_pos).le
  · have half := rounding.abs_sub_le
    have fine := spacing_le positive
    calc |rounded - exact|
        ≤ (exact / 2 ^ 52 + least) / 2 := half.trans (by linarith)
      _ = exact / 2 ^ 53 + least / 2 := by ring

private theorem le_of_grid (rounding : Rounds exact rounded) {steps : ℕ}
    (below : steps * spacing exact ≤ exact) : steps * spacing exact ≤ rounded := by
  obtain ⟨nearest, rfl, rounding⟩ := rounding
  have positive := spacing_pos exact
  have fewer : steps ≤ nearest := rounding.le_of_le ((le_div_iff₀ positive).mpr below)
  have cast : (steps : ℚ) ≤ nearest := by exact_mod_cast fewer
  exact mul_le_mul_of_nonneg_right cast positive.le

/-- A number with 53 bits is not crossed. -/
theorem le_of_representable (rounding : Rounds exact rounded) {value : ℚ}
    (representable : Representable value) (below : value ≤ exact) : value ≤ rounded := by
  rcases (representable.nonneg.trans below).eq_or_lt with rfl | positive
  · exact below.trans rounding.nonneg
  · rcases representable.on_grid_or_below positive with ⟨steps, rfl⟩ | ⟨small, binade⟩
    · exact rounding.le_of_grid below
    · have kept : ((2 ^ 52 : ℕ) : ℚ) * spacing exact ≤ rounded :=
        rounding.le_of_grid (by exact_mod_cast binade)
      have room := spacing_pos exact
      push_cast at kept
      linarith

/-- What is added to a number with 53 bits is absorbed if it is less than half a spacing. -/
theorem absorbs {value extra : ℚ} (rounding : Rounds (value + extra) rounded)
    (representable : Representable value) (nonneg : 0 ≤ extra)
    (small : 2 * extra < spacing (value + extra)) : rounded = value := by
  have unit := spacing_pos (value + extra)
  rcases (add_nonneg representable.nonneg nonneg).eq_or_lt with zero | positive
  · have none : value = 0 := by linarith [representable.nonneg]
    rw [← zero] at rounding
    rw [rounding.eq_zero, none]
  · rcases representable.on_grid_or_below positive with ⟨steps, grid⟩ | ⟨low, binade⟩
    · obtain ⟨nearest, rfl, rounding⟩ := rounding
      have offset : (value + extra) / spacing (value + extra) - steps =
          extra / spacing (value + extra) := by
        rw [div_sub' unit.ne', mul_comm, ← grid, add_sub_cancel_left]
      have close : |(value + extra) / spacing (value + extra) - steps| < 1 / 2 := by
        rw [offset, abs_of_nonneg (by positivity), div_lt_iff₀ unit]
        linarith
      rw [rounding.eq_of_lt close, ← grid]
    -- The magnitude would have to be carried over to the next binade by less than half a spacing.
    · linarith

/-- A number with 53 bits is kept. -/
theorem eq_self (rounding : Rounds exact rounded) (representable : Representable exact) :
    rounded = exact := by
  have rounding : Rounds (exact + 0) rounded := by rwa [add_zero]
  apply rounding.absorbs representable le_rfl
  rw [mul_zero]
  exact spacing_pos _

end Rounds

private theorem nearestQuotient_tie (numerator : ℕ) {denominator : ℕ} (positive : 0 < denominator)
    (tie : 2 * numerator = (2 * nearestQuotient numerator denominator + 1) * denominator ∨
      2 * (nearestQuotient numerator denominator * denominator) = 2 * numerator + denominator) :
    nearestQuotient numerator denominator % 2 = 0 := by
  have split := Nat.div_add_mod numerator denominator
  have below := Nat.mod_lt numerator positive
  have commute : denominator * (numerator / denominator) = numerator / denominator * denominator :=
    Nat.mul_comm ..
  simp only [nearestQuotient] at tie ⊢
  split at tie <;> rename_i side
  · rw [if_pos side]
    simp only [Nat.add_mul, Nat.mul_assoc, Nat.one_mul] at tie
    omega
  · rw [if_neg side]
    simp only [Nat.add_mul, Nat.mul_add, Nat.mul_assoc, Nat.one_mul, Nat.mul_one] at tie
    omega

theorem nearestQuotient_isNearest (numerator : ℕ) {denominator : ℕ} (positive : 0 < denominator) :
    IsNearest (numerator / denominator) (nearestQuotient numerator denominator) := by
  have proper : (0 : ℚ) < denominator := by exact_mod_cast positive
  obtain ⟨lower, upper⟩ := nearestQuotient_error numerator positive
  have even := nearestQuotient_tie numerator positive
  generalize nearestQuotient numerator denominator = nearest at *
  have difference : (numerator : ℚ) / denominator - nearest =
      (numerator - nearest * denominator) / denominator := by
    field_simp
  have lower : (2 : ℚ) * numerator ≤ (2 * nearest + 1) * denominator := by exact_mod_cast lower
  have upper : (2 : ℚ) * (nearest * denominator) ≤ 2 * numerator + denominator := by
    exact_mod_cast upper
  refine ⟨?_, ?_⟩
  · rw [difference, abs_div, abs_of_pos proper, div_le_iff₀ proper, abs_le]
    constructor <;> linarith
  · intro tie
    rw [difference, abs_div, abs_of_pos proper, div_eq_iff proper.ne',
      abs_eq (by positivity)] at tie
    apply even
    rcases tie with above | below
    · left
      have twice : (2 : ℚ) * numerator = (2 * nearest + 1) * denominator := by linarith
      exact_mod_cast twice
    · right
      have twice : (2 : ℚ) * (nearest * denominator) = 2 * numerator + denominator := by linarith
      exact_mod_cast twice

/-- A quotient of shifted numbers is a quotient scaled by a power of two. -/
theorem shift_div_shift (numerator denominator : ℕ) (exponent : ℤ) :
    ((numerator <<< exponent.toNat : ℕ) : ℚ) / (denominator <<< (-exponent).toNat : ℕ) =
      numerator / denominator * 2 ^ exponent := by
  rw [Nat.shiftLeft_eq, Nat.shiftLeft_eq, two_zpow_eq_div]
  push_cast
  rw [mul_div_mul_comm]

private theorem log_eq_of_bounds {exact : ℚ} {exponent : ℤ} (low : 2 ^ exponent ≤ exact)
    (high : exact < 2 ^ (exponent + 1)) : Int.log 2 exact = exponent := by
  have positive : 0 < exact := (zpow_pos (by norm_num) exponent).trans_le low
  apply le_antisymm
  · exact Int.lt_add_one_iff.mp
      ((Int.lt_zpow_iff_log_lt (b := 2) (by norm_num) positive).mp (by exact_mod_cast high))
  · exact (Int.zpow_le_iff_le_log (b := 2) (by norm_num) positive).mp (by exact_mod_cast low)

/-- The logarithms of numerator and denominator give that of the quotient up to one. -/
private theorem quotient_bounds {numerator denominator : ℕ} (positive : 0 < numerator)
    (proper : 0 < denominator) :
    2 ^ ((numerator.log2 : ℤ) - denominator.log2 - 1) ≤ (numerator / denominator : ℚ) ∧
      (numerator / denominator : ℚ) < 2 ^ ((numerator.log2 : ℤ) - denominator.log2 + 1) := by
  have bounds {value : ℕ} (some : 0 < value) :
      (2 : ℚ) ^ value.log2 ≤ value ∧ (value : ℚ) < 2 ^ (value.log2 + 1) :=
    ⟨by exact_mod_cast Nat.log2_self_le some.ne', by exact_mod_cast Nat.lt_log2_self⟩
  obtain ⟨numeratorLow, numeratorHigh⟩ := bounds positive
  obtain ⟨denominatorLow, denominatorHigh⟩ := bounds proper
  constructor
  · calc (2 : ℚ) ^ ((numerator.log2 : ℤ) - denominator.log2 - 1)
        = 2 ^ numerator.log2 / 2 ^ (denominator.log2 + 1) := by
          rw [← two_zpow_sub, Nat.cast_succ, ← sub_sub]
      _ ≤ numerator / denominator :=
          div_le_div₀ (by positivity) numeratorLow (by positivity) denominatorHigh.le
  · calc (numerator / denominator : ℚ)
        < 2 ^ (numerator.log2 + 1) / 2 ^ denominator.log2 :=
          div_lt_div₀ numeratorHigh denominatorLow (by positivity) (by positivity)
      _ = 2 ^ ((numerator.log2 : ℤ) - denominator.log2 + 1) := by
          rw [← two_zpow_sub, Nat.cast_succ, add_sub_right_comm]

/-- The leading exponent is the logarithm of the quotient. -/
theorem leadingExponent_eq_log {numerator denominator : ℕ} (positive : 0 < numerator)
    (proper : 0 < denominator) :
    leadingExponent numerator denominator = Int.log 2 (numerator / denominator : ℚ) := by
  obtain ⟨low, high⟩ := quotient_bounds positive proper
  set estimate : ℤ := (numerator.log2 : ℤ) - denominator.log2 with estimated
  have compared : denominator <<< estimate.toNat ≤ numerator <<< (-estimate).toNat ↔
      (2 : ℚ) ^ estimate ≤ numerator / denominator := by
    rw [two_zpow_eq_div, div_le_div_iff₀ (by positivity) (by positivity), Nat.shiftLeft_eq,
      Nat.shiftLeft_eq, mul_comm denominator]
    exact_mod_cast Iff.rfl
  rw [leadingExponent, ← estimated]
  simp only [compared]
  split
  · next fits => exact (log_eq_of_bounds fits high).symm
  · next beyond =>
    refine (log_eq_of_bounds low ?_).symm
    rw [sub_add_cancel]
    exact not_le.mp beyond

def sign (negative : Bool) : ℚ :=
  if negative then -1 else 1

/-- The rational number that a double stands for. NaN and the infinities stand for none. -/
def value? : Binary64 → Option ℚ
  | .finite negative significand exponent _ => some (sign negative * (significand * 2 ^ exponent))
  | _ => none

/-- A double is an exact magnitude rounded, or the infinity for one beyond the last binade. -/
def Approximates (double : Binary64) (exact : ℚ) : Prop :=
  (∃ rounded, double.value? = some rounded ∧ Rounds exact rounded) ∨
    double = .infinite false ∧ 2 ^ 1023 ≤ exact

/-- Magnitudes far from the last binade do not overflow. -/
theorem Approximates.exists_rounds {double : Binary64} {exact : ℚ}
    (approximates : double.Approximates exact) (below : exact < 2 ^ 100) :
    ∃ rounded, double.value? = some rounded ∧ Rounds exact rounded := by
  apply approximates.resolve_right
  rintro ⟨_, large⟩
  have reach : (2 : ℚ) ^ 100 ≤ 2 ^ 1023 := pow_le_pow_right₀ (by norm_num) (by norm_num)
  exact absurd below (not_lt.mpr (reach.trans large))

/-- Parts that give the rounded magnitude are a rounding of it if they only fail to be canonical
beyond the last binade. -/
theorem ofParts_approximates {exact : ℚ} {significand : ℕ} {exponent : ℤ}
    (rounds : Rounds exact (significand * 2 ^ exponent))
    (overflow : ¬ Canonical significand exponent → 2 ^ 1023 ≤ exact) :
    (ofParts false significand exponent).Approximates exact := by
  by_cases canonical : Canonical significand exponent
  · left
    exact ⟨_, by rw [ofParts_eq_finite canonical, value?], by simpa [sign] using rounds⟩
  · right
    exact ⟨dif_neg canonical, overflow canonical⟩

/-- The point of the grid nearest to a magnitude, written with a significand of 53 bits,
approximates the magnitude. -/
private theorem gridParts_approximates {exact : ℚ} {steps : ℕ} (positive : 0 < exact)
    (nearest : IsNearest (exact / spacing exact) steps) :
    (if steps = 9007199254740992 then ofParts false 4503599627370496 (gridExponent exact + 1)
      else ofParts false steps (gridExponent exact)).Approximates exact := by
  have room := spacing_pos exact
  have few : steps ≤ 2 ^ 53 := nearest.ge_of_ge (by
    rw [div_le_iff₀ room]
    exact_mod_cast (lt_spacing exact).le)
  have binade : gridExponent exact = -1074 ∨ 2 ^ 52 ≤ steps ∧ 2 ^ 52 * spacing exact ≤ exact := by
    refine (spacing_le_or positive).imp_right fun full => ⟨nearest.le_of_le ?_, full⟩
    rw [le_div_iff₀ room]
    exact_mod_cast full
  have overflow (high : 971 ≤ gridExponent exact) : 2 ^ 1023 ≤ exact := by
    have full := (binade.resolve_left (by omega)).2
    have last : (2 : ℚ) ^ 971 ≤ spacing exact := by
      rw [← zpow_natCast]
      exact zpow_le_zpow_right₀ (by norm_num) high
    calc (2 : ℚ) ^ 1023 = 2 ^ 52 * 2 ^ 971 := by rw [← pow_add]
      _ ≤ 2 ^ 52 * spacing exact := mul_le_mul_of_nonneg_left last (by norm_num)
      _ ≤ exact := full
  have lowest := gridExponent_ge exact
  split
  · next carried =>
    -- The significand was rounded up to the next power of two: the next grid holds it.
    apply ofParts_approximates
    · refine ⟨steps, ?_, nearest⟩
      rw [carried, spacing, zpow_add_one₀ (by norm_num)]
      push_cast
      ring
    · intro improper
      apply overflow
      simp only [Canonical] at improper
      omega
  · next fits =>
    apply ofParts_approximates
    · exact ⟨steps, rfl, nearest⟩
    · intro improper
      apply overflow
      simp only [Canonical] at improper
      omega

/-- The double nearest to a quotient approximates it. -/
theorem ofQuotient_approximates (numerator : ℕ) {denominator : ℕ} (proper : 0 < denominator) :
    (ofQuotient false numerator denominator).Approximates (numerator / denominator) := by
  rcases Nat.eq_zero_or_pos numerator with rfl | positive
  · left
    exact ⟨0, by simp [ofQuotient, zero, value?], 0, by simp, by simp, by simp⟩
  · rw [ofQuotient, if_neg positive.ne', leadingExponent_eq_log positive proper]
    apply gridParts_approximates (by positivity)
    set exponent := gridExponent (numerator / denominator) with grid
    have scaled : (numerator : ℚ) / denominator / spacing (numerator / denominator) =
        (numerator <<< (-exponent).toNat : ℕ) / (denominator <<< exponent.toNat : ℕ) := by
      have shifted := shift_div_shift numerator denominator (-exponent)
      rw [Int.neg_neg] at shifted
      rw [shifted, spacing, ← grid, zpow_neg, ← div_eq_mul_inv]
    rw [scaled]
    apply nearestQuotient_isNearest
    rw [Nat.shiftLeft_eq]
    positivity

end ByteFormat.Binary64
