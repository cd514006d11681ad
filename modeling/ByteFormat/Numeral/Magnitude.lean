/-! # Magnitudes and radices

A numeral is written from an unsigned machine word, which is taken apart digit by digit by division
with remainder. Words of 32 and of 64 bits behave alike; division stays within the word size of the
dividend.
-/

namespace ByteFormat

inductive Radix where
  | binary
  | decimal
  | hexadecimal
deriving DecidableEq, Repr

def Radix.base : Radix → UInt8
  | .binary => 2
  | .decimal => 10
  | .hexadecimal => 16

/-- An unsigned machine word. -/
inductive Magnitude where
  | word32 (value : UInt32)
  | word64 (value : UInt64)
deriving DecidableEq, Repr

inductive DivisionError where
  | divisionByZero
deriving DecidableEq, Repr

def DivisionError.message : DivisionError → String
  | .divisionByZero => "attempt to divide by zero"

namespace Magnitude

def toNat : Magnitude → Nat
  | .word32 value => value.toNat
  | .word64 value => value.toNat

def isZero : Magnitude → Bool
  | .word32 value => value == 0
  | .word64 value => value == 0

/-- The word without its last digit. -/
def quotient : Magnitude → UInt8 → Magnitude
  | .word32 value, base => .word32 (value / base.toUInt32)
  | .word64 value, base => .word64 (value / base.toUInt64)

/-- The last digit of a word. -/
def remainder : Magnitude → UInt8 → UInt8
  | .word32 value, base => (value % base.toUInt32).toUInt8
  | .word64 value, base => (value % base.toUInt64).toUInt8

/-- Division with remainder by any byte. -/
def divide (magnitude : Magnitude) (base : UInt8) :
    Except DivisionError (Magnitude × UInt8) :=
  if base = 0 then .error .divisionByZero
  else .ok (magnitude.quotient base, magnitude.remainder base)

theorem isZero_iff (magnitude : Magnitude) : magnitude.isZero = true ↔ magnitude.toNat = 0 := by
  cases magnitude with
  | word32 value => simp [isZero, toNat, ← UInt32.toNat_inj]
  | word64 value => simp [isZero, toNat, ← UInt64.toNat_inj]

@[simp] theorem toNat_quotient (magnitude : Magnitude) (base : UInt8) :
    (magnitude.quotient base).toNat = magnitude.toNat / base.toNat := by
  cases magnitude <;> simp [quotient, toNat]

/-- Cutting the remainder to a byte loses nothing. -/
theorem toNat_remainder (magnitude : Magnitude) {base : UInt8} (positive : base ≠ 0) :
    (magnitude.remainder base).toNat = magnitude.toNat % base.toNat := by
  have nonzero : 0 < base.toNat :=
    Nat.pos_of_ne_zero fun zero => positive (UInt8.toNat_inj.mp (by simpa using zero))
  have byte : base.toNat < 256 := base.toNat_lt
  cases magnitude with
  | word32 value =>
    have small := Nat.mod_lt value.toNat nonzero
    simp only [remainder, toNat, UInt32.toNat_toUInt8, UInt32.toNat_mod, UInt8.toNat_toUInt32]
    omega
  | word64 value =>
    have small := Nat.mod_lt value.toNat nonzero
    simp only [remainder, toNat, UInt64.toNat_toUInt8, UInt64.toNat_mod, UInt8.toNat_toUInt64]
    omega

/-- Every radix shortens a word that has digits left. -/
theorem quotient_lt {magnitude : Magnitude} {radix : Radix}
    (more : ¬ (magnitude.quotient radix.base).isZero = true) :
    (magnitude.quotient radix.base).toNat < magnitude.toNat := by
  rw [isZero_iff, toNat_quotient] at more
  rw [toNat_quotient]
  have positive : magnitude.toNat ≠ 0 := fun zero => more (by simp [zero])
  cases radix <;> simp [Radix.base] <;> omega

end Magnitude

end ByteFormat
