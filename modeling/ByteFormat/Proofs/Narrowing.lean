import ByteFormat.Argument
import Mathlib.Data.Int.ModEq

/-! # Narrowing of integer arguments

An argument of an integer kind has a value, and a directive sees that value reduced to the word it
asks for: the one integer in the range of the word that is congruent to the value. Fetching yields
the sign and the magnitude of the reduced value, in every build (`Argument.magnitude_integer`,
`Argument.negative_integer`).
-/

namespace ByteFormat

def Length.bits : Length → Nat
  | .plain => 32
  | .long | .longLong => 64

/-- The value of an argument of an integer kind. -/
def Argument.value? : Argument → Option Int
  | .int value => some value.toInt
  | .uint value => some value.toNat
  | .long value => some value.toInt
  | .ulong value => some value.toNat
  | .longLong value => some value.toInt
  | .ulongLong value => some value.toNat
  | .pointer address => some address.toNat
  | .double _ => none
  | .text _ => none

namespace Fetched

/-- The word that is fetched, whichever word it is. -/
def magnitude : Fetched → Magnitude
  | .native magnitude _ => .word64 magnitude
  | .wide magnitude _ => .word64 magnitude

def negative : Fetched → Bool
  | .native _ negative => negative
  | .wide _ negative => negative

end Fetched

def InRange (signed : Bool) (bits : Nat) (value : Int) : Prop :=
  if signed then -2 ^ (bits - 1) ≤ value ∧ value < 2 ^ (bits - 1)
  else 0 ≤ value ∧ value < 2 ^ bits

/-- A value reduced to a signed or unsigned word. -/
def narrow (signed : Bool) (bits : Nat) (value : Int) : Int :=
  if signed then value.bmod (2 ^ bits) else value % 2 ^ bits

/-- The reduced value is the only one in range that is congruent to the value. -/
theorem eq_narrow_iff {signed : Bool} {bits : Nat} {value candidate : Int} (word : 0 < bits) :
    candidate = narrow signed bits value ↔
      candidate ≡ value [ZMOD 2 ^ bits] ∧ InRange signed bits candidate := by
  obtain ⟨half, rfl⟩ := Nat.exists_eq_add_one_of_ne_zero word.ne'
  have size : (2 : Int) ^ (half + 1) = 2 * 2 ^ half := by rw [pow_succ, mul_comm]
  have positive : (0 : Int) < 2 ^ half := Int.pow_pos (by decide)
  cases signed with
  | true =>
    have cast : (((2 : Nat) ^ (half + 1) : Nat) : Int) = 2 ^ (half + 1) := by push_cast; rfl
    rw [narrow, if_pos rfl, eq_comm, Int.bmod_eq_iff (Nat.two_pow_pos _), cast, ← and_assoc,
      and_comm, ← Int.modEq_iff_dvd, Int.modEq_comm, InRange, if_pos rfl, Nat.add_sub_cancel, size]
    apply and_congr_right
    intro _
    omega
  | false =>
    rw [narrow, if_neg Bool.false_ne_true, InRange, if_neg Bool.false_ne_true]
    constructor
    · rintro rfl
      exact ⟨Int.mod_modEq value _, Int.emod_nonneg _ (by omega), Int.emod_lt_of_pos _ (by omega)⟩
    · rintro ⟨congruent, nonneg, below⟩
      exact (Int.emod_eq_of_lt nonneg below).symm.trans congruent

theorem Length.bits_pos (length : Length) : 0 < length.bits := by
  cases length <;> decide

theorem toNat_toUInt64_int64 (value : Int64) :
    (value.toUInt64.toNat : Int) = value.toInt % 2 ^ 64 := by
  have residue : value.toInt % ((2 ^ 64 : Nat) : Int) =
      value.toBitVec.toNat % ((2 ^ 64 : Nat) : Int) := by
    rw [← Int64.toInt_toBitVec, BitVec.toInt_eq_toNat_bmod, Int.bmod_emod]
  have below := value.toBitVec.isLt
  rw [← UInt64.toNat_toBitVec, Int64.toBitVec_toUInt64]
  omega

private theorem toInt_toInt64_uint64 (bits : UInt64) :
    bits.toInt64.toInt = (bits.toNat : Int).bmod (2 ^ 64) := by
  rw [← Int64.toInt_toBitVec, UInt64.toBitVec_toInt64, BitVec.toInt_eq_toNat_bmod,
    UInt64.toNat_toBitVec]

private theorem toInt_toInt32_uint32 (bits : UInt32) :
    bits.toInt32.toInt = (bits.toNat : Int).bmod (2 ^ 32) := by
  rw [← Int32.toInt_toBitVec, UInt32.toBitVec_toInt32, BitVec.toInt_eq_toNat_bmod,
    UInt32.toNat_toBitVec]

namespace Argument

/-- The pattern read as a signed integer of the given length. -/
def signedValue (length : Length) (argument : Argument) : Int64 :=
  match length with
  | .plain => argument.bits.toUInt32.toInt32.toInt64
  | .long | .longLong => argument.bits.toInt64

def unsignedValue (length : Length) (argument : Argument) : UInt64 :=
  match length with
  | .plain => argument.bits.toUInt32.toUInt64
  | .long | .longLong => argument.bits

/-- The pattern of an integer argument is its value modulo the word. -/
theorem bits_of_value {argument : Argument} {value : Int}
    (integral : argument.value? = some value) :
    (argument.bits.toNat : Int) = value % 2 ^ 64 := by
  cases argument with
  | int small =>
    cases integral
    rw [bits, toNat_toUInt64_int64, Int32.toInt_toInt64]
  | uint small =>
    cases integral
    have below := small.toNat_lt
    simp only [bits, UInt32.toNat_toUInt64]
    omega
  | long wide | longLong wide =>
    cases integral
    exact toNat_toUInt64_int64 wide
  | ulong wide | ulongLong wide | pointer wide =>
    cases integral
    have below := wide.toNat_lt
    simp only [bits]
    omega
  | double value => cases integral
  | text located => cases integral

/-- Read as a signed word, an integer argument is its value reduced to the word. -/
theorem toInt_signedValue {argument : Argument} {value : Int}
    (integral : argument.value? = some value) (length : Length) :
    (argument.signedValue length).toInt = narrow true length.bits value := by
  have pattern := bits_of_value integral
  have wide : argument.bits.toInt64.toInt = value.bmod (2 ^ 64) := by
    rw [toInt_toInt64_uint64, pattern]
    exact Int.emod_bmod value (2 ^ 64)
  cases length with
  | plain =>
    have low : (argument.bits.toUInt32.toNat : Int) = value % ((2 ^ 32 : Nat) : Int) := by
      rw [UInt64.toNat_toUInt32]
      omega
    rw [signedValue, Int32.toInt_toInt64, toInt_toInt32_uint32, low, Int.emod_bmod]
    rfl
  | long | longLong => exact wide

/-- Read as an unsigned word, an integer argument is its value reduced to the word. -/
theorem toNat_unsignedValue {argument : Argument} {value : Int}
    (integral : argument.value? = some value) (length : Length) :
    ((argument.unsignedValue length).toNat : Int) = narrow false length.bits value := by
  have pattern := bits_of_value integral
  cases length with
  | plain =>
    simp only [unsignedValue, UInt32.toNat_toUInt64, UInt64.toNat_toUInt32, narrow, Length.bits,
      Bool.false_eq_true, if_false]
    omega
  | long | longLong => exact pattern

/-- Every arm of the fetch yields the magnitude of the value that it reads. -/
theorem integer_magnitude (argument : Argument) (profile : Profile) (length : Length)
    (signed : Bool) :
    (argument.integer profile length signed).magnitude =
      .word64 (if signed then UInt64.ofNat (argument.signedValue length).toInt.natAbs
        else argument.unsignedValue length) := by
  obtain ⟨wide⟩ := profile
  cases length with
  | plain | long => cases signed <;> rfl
  | longLong => cases wide <;> cases signed <;> rfl

/-- Every arm of the fetch yields the sign of the value that it reads. -/
theorem integer_negative (argument : Argument) (profile : Profile) (length : Length)
    (signed : Bool) :
    (argument.integer profile length signed).negative =
      (signed && decide (argument.signedValue length < 0)) := by
  obtain ⟨wide⟩ := profile
  cases length with
  | plain | long => cases signed <;> rfl
  | longLong => cases wide <;> cases signed <;> rfl

/-- A fetch depends on the argument through the two values that can be read only. -/
theorem integer_of_values {first second : Argument} {length : Length}
    (signedValue : first.signedValue length = second.signedValue length)
    (unsignedValue : first.unsignedValue length = second.unsignedValue length)
    (profile : Profile) (signed : Bool) :
    first.integer profile length signed = second.integer profile length signed := by
  cases length with
  | plain | long => exact congrArg₂ (Fetched.ofNative · · signed) signedValue unsignedValue
  | longLong =>
    have bits : first.bits = second.bits := unsignedValue
    rw [integer, integer, bits]

/-- The magnitude fetched from an integer argument is that of its reduced value. -/
theorem magnitude_integer {argument : Argument} {value : Int}
    (integral : argument.value? = some value) (profile : Profile) (length : Length)
    (signed : Bool) :
    (argument.integer profile length signed).magnitude.toNat =
      (narrow signed length.bits value).natAbs := by
  rw [integer_magnitude, Magnitude.toNat]
  cases signed with
  | true =>
    have low := (argument.signedValue length).le_toInt
    have high := (argument.signedValue length).toInt_lt
    rw [if_pos rfl, UInt64.toNat_ofNat', ← toInt_signedValue integral]
    omega
  | false =>
    have same := toNat_unsignedValue integral length
    rw [if_neg Bool.false_ne_true]
    omega

/-- The sign fetched from an integer argument is that of its reduced value. -/
theorem negative_integer {argument : Argument} {value : Int}
    (integral : argument.value? = some value) (profile : Profile) (length : Length)
    (signed : Bool) :
    (argument.integer profile length signed).negative =
      decide (narrow signed length.bits value < 0) := by
  rw [integer_negative]
  cases signed with
  | true =>
    rw [Bool.true_and, ← toInt_signedValue integral, decide_eq_decide, Int64.lt_iff_toInt_lt,
      Int64.toInt_zero]
  | false =>
    have same := toNat_unsignedValue integral length
    have nonneg : ¬ narrow false length.bits value < 0 := by omega
    rw [Bool.false_and, decide_eq_false nonneg]

end Argument

end ByteFormat
