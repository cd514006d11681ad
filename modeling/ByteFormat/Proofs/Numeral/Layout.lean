import ByteFormat.Numeral.Field
import Mathlib.Data.Nat.Digits.Lemmas

/-! # Layout of numeric fields

The numeral of a number is the list of its digits in a radix, the first one first. A field is
written from the right, digit by digit, into a bounded area. No word has so many digits that the
area overflows, so the field is the padding, the sign and the numeral, and nothing is dropped
(`Magnitude.field_eq`).
-/

namespace ByteFormat

namespace Radix

/-- The symbols of the digits, in the order of their values. -/
def symbols : List UInt8 :=
  ['0', '1', '2', '3', '4', '5', '6', '7', '8', '9', 'A', 'B', 'C', 'D', 'E', 'F'].map Char.toUInt8

def symbol (digit : Nat) : UInt8 :=
  symbols.getD digit 0

/-- The digits of a number from the first to the last. Zero has one digit, and no other number
begins with a zero. -/
def numeral (radix : Radix) (value : Nat) : List UInt8 :=
  (if value = 0 then [0] else (Nat.digits radix.base.toNat value).reverse).map symbol

theorem one_lt_base (radix : Radix) : 1 < radix.base.toNat := by
  cases radix <;> decide

theorem base_le (radix : Radix) : radix.base.toNat ≤ 16 := by
  cases radix <;> decide

private theorem base_ne_zero (radix : Radix) : radix.base ≠ 0 := by
  cases radix <;> decide

theorem numeral_of_div_eq_zero {radix : Radix} {value : Nat}
    (last : value / radix.base.toNat = 0) :
    radix.numeral value = [symbol (value % radix.base.toNat)] := by
  have base := radix.one_lt_base
  have small : value < radix.base.toNat := (Nat.div_eq_zero_iff_lt (by omega)).mp last
  by_cases zero : value = 0
  · simp [numeral, zero]
  · simp [numeral, zero, Nat.digits_of_lt _ _ zero small, Nat.mod_eq_of_lt small]

/-- The digits of a larger number are those of its quotient and then its remainder. -/
theorem numeral_of_div_ne_zero {radix : Radix} {value : Nat}
    (more : value / radix.base.toNat ≠ 0) :
    radix.numeral value =
      radix.numeral (value / radix.base.toNat) ++ [symbol (value % radix.base.toNat)] := by
  have positive : value ≠ 0 := fun zero => more (by simp [zero])
  rw [numeral, numeral, if_neg positive, if_neg more,
    Nat.digits_eq_cons_digits_div radix.one_lt_base positive]
  simp

/-- The number of digits, counted on the list of digit values. -/
theorem length_numeral (radix : Radix) (value : Nat) :
    (radix.numeral value).length = max 1 (Nat.digits radix.base.toNat value).length := by
  by_cases zero : value = 0
  · simp [numeral, zero]
  · have nonempty : 0 < (Nat.digits radix.base.toNat value).length :=
      List.length_pos_iff.mpr (Nat.digits_ne_nil_iff_ne_zero.mpr zero)
    simp only [numeral, if_neg zero, List.length_map, List.length_reverse]
    omega

/-- A number below a power of the base has at most as many digits as the exponent says. -/
theorem length_numeral_le_max (radix : Radix) {value digits : Nat}
    (small : value < radix.base.toNat ^ digits) : (radix.numeral value).length ≤ max digits 1 := by
  have short := (Nat.digits_length_le_iff radix.one_lt_base value).mpr small
  rw [length_numeral]
  omega

/-- A numeral has at most as many digits as its number has bits. -/
private theorem length_numeral_le (radix : Radix) {value bits : Nat} (positive : 0 < bits)
    (short : value < 2 ^ bits) : (radix.numeral value).length ≤ bits := by
  have wide : 2 ^ bits ≤ radix.base.toNat ^ bits := Nat.pow_le_pow_left radix.one_lt_base bits
  have digits := radix.length_numeral_le_max (short.trans_le wide)
  omega

/-- Every byte of a numeral is the symbol of a digit below the base. -/
theorem exists_digit_of_mem_numeral {radix : Radix} {value : Nat} {byte : UInt8}
    (member : byte ∈ radix.numeral value) : ∃ digit < radix.base.toNat, byte = symbol digit := by
  have base := radix.one_lt_base
  obtain ⟨digit, present, rfl⟩ := List.mem_map.mp member
  refine ⟨digit, ?_, rfl⟩
  by_cases zero : value = 0
  · have same : digit = 0 := by simpa [zero] using present
    omega
  · rw [if_neg zero, List.mem_reverse] at present
    exact Nat.digits_lt_base base present

theorem symbol_mem_symbols : ∀ digit : Fin 16, symbol digit ∈ symbols := by
  decide

/-- A byte that is the symbol of no digit stands in no numeral. -/
theorem notMem_numeral {byte : UInt8} (other : ∀ digit : Fin 16, symbol digit ≠ byte)
    (radix : Radix) (value : Nat) : byte ∉ radix.numeral value := by
  intro member
  obtain ⟨digit, small, same⟩ := exists_digit_of_mem_numeral member
  exact other ⟨digit, small.trans_le radix.base_le⟩ same.symm

end Radix

namespace Scratch

private theorem digit_ofNat : ∀ value : Fin 16, digit (UInt8.ofNat value) = Radix.symbol value := by
  decide

private theorem digit_remainder (radix : Radix) (magnitude : Magnitude) :
    digit (magnitude.remainder radix.base) =
      Radix.symbol (magnitude.toNat % radix.base.toNat) := by
  have value := magnitude.toNat_remainder radix.base_ne_zero
  have positive := radix.one_lt_base
  have below : magnitude.toNat % radix.base.toNat < 16 :=
    (Nat.mod_lt _ (by omega)).trans_le radix.base_le
  have written := digit_ofNat ⟨_, below⟩
  rwa [Fin.val_mk, ← value, UInt8.ofNat_toNat, value] at written

theorem bytes_push_of_lt {scratch : Scratch} (room : scratch.bytes.length < capacity)
    (byte : UInt8) : (scratch.push byte).bytes = byte :: scratch.bytes := by
  rw [bytes_push, if_pos room]

/-- As long as there is room, the digits of a word are put in front of what is written, and each of
them takes a column. -/
theorem pushDigits_eq (radix : Radix) (magnitude : Magnitude) (scratch : Scratch) (width : Nat)
    (room : scratch.bytes.length + (radix.numeral magnitude.toNat).length ≤ capacity) :
    (pushDigits radix magnitude scratch width).1.bytes =
        radix.numeral magnitude.toNat ++ scratch.bytes ∧
      (pushDigits radix magnitude scratch width).2 =
        width - (radix.numeral magnitude.toNat).length := by
  fun_induction pushDigits radix magnitude scratch width with
  | case1 magnitude scratch width pushed last =>
    rw [Magnitude.isZero_iff, Magnitude.toNat_quotient] at last
    have numeral := Radix.numeral_of_div_eq_zero last
    rw [numeral] at room ⊢
    have fits : scratch.bytes.length < capacity := by simpa using room
    exact ⟨by rw [bytes_push_of_lt fits, digit_remainder, List.singleton_append], rfl⟩
  | case2 magnitude scratch width pushed more ih =>
    rw [Magnitude.isZero_iff, Magnitude.toNat_quotient] at more
    have numeral := Radix.numeral_of_div_ne_zero more
    rw [numeral, List.length_append, List.length_singleton] at room
    have fits : scratch.bytes.length < capacity := by omega
    have written : pushed.bytes =
        Radix.symbol (magnitude.toNat % radix.base.toNat) :: scratch.bytes := by
      rw [bytes_push_of_lt fits, digit_remainder]
    rw [Magnitude.toNat_quotient, written] at ih
    obtain ⟨digits, columns⟩ := ih (by simp only [List.length_cons]; omega)
    rw [digits, columns, numeral, List.append_assoc, List.singleton_append, List.length_append,
      List.length_singleton]
    exact ⟨rfl, by omega⟩

/-- Repeated pushes put copies of a byte in front of what is written. -/
theorem bytes_pad (fill : UInt8) (scratch : Scratch) (width : Nat)
    (room : scratch.bytes.length + width ≤ capacity) :
    (scratch.pad fill width).bytes = List.replicate width fill ++ scratch.bytes := by
  unfold pad
  induction width with
  | zero => rfl
  | succ width ih =>
    have before := ih (by omega)
    have fits : (Nat.repeat (push · fill) width scratch).bytes.length < capacity := by
      rw [before, List.length_append, List.length_replicate]
      omega
    rw [Nat.repeat, bytes_push_of_lt fits, before, List.replicate_succ, List.cons_append]

end Scratch

def signBytes (negative : Bool) : List UInt8 :=
  if negative then ['-'.toUInt8] else []

private theorem length_signBytes_le (negative : Bool) : (signBytes negative).length ≤ 1 := by
  cases negative <;> decide

theorem Magnitude.toNat_lt (magnitude : Magnitude) : magnitude.toNat < 2 ^ 64 := by
  cases magnitude with
  | word32 value => exact value.toNat_lt.trans (by decide)
  | word64 value => exact value.toNat_lt

/-- A sign and a numeral fit into the area, with a column to spare. -/
theorem Magnitude.length_signed_lt (magnitude : Magnitude) (radix : Radix) (negative : Bool) :
    (signBytes negative ++ radix.numeral magnitude.toNat).length < Scratch.capacity := by
  have digits := radix.length_numeral_le (by decide) magnitude.toNat_lt
  have sign := length_signBytes_le negative
  simp only [List.length_append, Scratch.capacity]
  omega

/-- Digits and sign of a number in the empty area, with the columns that they leave. -/
theorem Magnitude.pushSign_pushDigits (magnitude : Magnitude) (radix : Radix) (negative : Bool)
    (width : Nat) :
    let digits := Scratch.pushDigits radix magnitude .empty width
    (Scratch.pushSign negative digits.1 digits.2).1.bytes =
        signBytes negative ++ radix.numeral magnitude.toNat ∧
      (Scratch.pushSign negative digits.1 digits.2).2 =
        width - (signBytes negative ++ radix.numeral magnitude.toNat).length := by
  have room := magnitude.length_signed_lt radix negative
  rw [List.length_append] at room
  obtain ⟨written, columns⟩ := Scratch.pushDigits_eq radix magnitude .empty width
    (by rw [Scratch.bytes_empty, List.length_nil]; omega)
  rw [Scratch.bytes_empty, List.append_nil] at written
  cases negative with
  | false => exact ⟨written, columns⟩
  | true =>
    have sign : (signBytes true).length = 1 := rfl
    have fits : (Scratch.pushDigits radix magnitude .empty width).1.bytes.length <
        Scratch.capacity := by
      rw [written]
      omega
    simp only [Scratch.pushSign, if_true, Scratch.bytes_push_of_lt fits, written, columns,
      List.length_append, sign]
    exact ⟨rfl, by omega⟩

/-- A numeric field is padding, sign and numeral. The padding takes what the other two leave of the
requested width, up to the capacity. -/
theorem Magnitude.field_eq (magnitude : Magnitude) (radix : Radix) (negative : Bool)
    (padding : Padding) :
    magnitude.field radix negative padding =
      List.replicate (min padding.width Scratch.capacity -
          (signBytes negative ++ radix.numeral magnitude.toNat).length) padding.fill ++
        (signBytes negative ++ radix.numeral magnitude.toNat) := by
  have room := magnitude.length_signed_lt radix negative
  obtain ⟨written, columns⟩ := magnitude.pushSign_pushDigits radix negative
    (min padding.width Scratch.capacity)
  rw [field, Scratch.bytes_pad, columns, written]
  rw [written, columns]
  omega

/-- A field takes the requested width, up to the capacity, or as much as its number needs. -/
theorem Magnitude.length_field (magnitude : Magnitude) (radix : Radix) (negative : Bool)
    (padding : Padding) :
    (magnitude.field radix negative padding).length =
      max (min padding.width Scratch.capacity)
        ((radix.numeral magnitude.toNat).length + if negative then 1 else 0) := by
  rw [field_eq, List.length_append, List.length_replicate]
  cases negative <;> simp [signBytes] <;> omega

end ByteFormat
