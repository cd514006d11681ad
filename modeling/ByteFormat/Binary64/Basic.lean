/-! # IEEE 754 binary64 values

A binary64 value is not a number, an infinity, or a signed significand scaled by a power of two.
Every finite value has exactly one canonical pair of significand and exponent, so equality of
values of this type is identity of the encodings they stand for, with all NaN encodings taken as
one.
-/

namespace ByteFormat

/-- Canonical significands have at most 53 bits, exponents range over `-1074 … 971`, and only the
least exponent admits significands below `2^52`: the subnormal values and zero. -/
def Binary64.Canonical (significand : Nat) (exponent : Int) : Prop :=
  significand < 9007199254740992 ∧ -1074 ≤ exponent ∧ exponent ≤ 971 ∧
    (exponent = -1074 ∨ 4503599627370496 ≤ significand)

instance Binary64.decidableCanonical (significand : Nat) (exponent : Int) :
    Decidable (Binary64.Canonical significand exponent) :=
  inferInstanceAs (Decidable (_ ∧ _ ∧ _ ∧ (_ ∨ _)))

/-- A double. The finite value is the significand times two to the exponent, with its sign. -/
inductive Binary64 where
  | nan
  | infinite (negative : Bool)
  | finite (negative : Bool) (significand : Nat) (exponent : Int)
      (canonical : Binary64.Canonical significand exponent)
deriving DecidableEq

namespace Binary64

/-- Assembles a value from its parts; parts that are out of range denote an overflow. -/
def ofParts (negative : Bool) (significand : Nat) (exponent : Int) : Binary64 :=
  if canonical : Canonical significand exponent then
    .finite negative significand exponent canonical
  else .infinite negative

theorem ofParts_eq_finite {significand : Nat} {exponent : Int}
    (canonical : Canonical significand exponent) (negative : Bool) :
    ofParts negative significand exponent = .finite negative significand exponent canonical := by
  simp [ofParts, canonical]

def zero (negative : Bool) : Binary64 :=
  .finite negative 0 (-1074) (by decide)

/-- Whether the value lies below zero; false of both zeros and of NaN. -/
def isNegative : Binary64 → Bool
  | .nan => false
  | .infinite negative => negative
  | .finite negative significand _ _ => negative && significand != 0

def neg : Binary64 → Binary64
  | .nan => .nan
  | .infinite negative => .infinite (!negative)
  | .finite negative significand exponent canonical =>
      .finite (!negative) significand exponent canonical

/-- Equality of numbers: NaN differs from everything, and the two zeros are equal. -/
def equal : Binary64 → Binary64 → Bool
  | .infinite left, .infinite right => left == right
  | .finite left significand exponent _, .finite right significand' exponent' _ =>
      significand == significand' && exponent == exponent' && (left == right || significand == 0)
  | _, _ => false

end Binary64

end ByteFormat
