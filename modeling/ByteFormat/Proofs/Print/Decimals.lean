import ByteFormat.Proofs.Call.ByType
import ByteFormat.Proofs.FixedPoint.WholeNumber
import ByteFormat.Proofs.Print.Integers

/-! # Printed decimals

A format that is one fixed-point directive prints the field of its argument, fetched as a double.
With places, padding fills the field up to the width and never beyond it; without places it goes one
column too far, since the digit behind the point is not counted (`width_covers_field_with_places`).
Whole numbers are printed as they are, with one exception: without places, an odd number of 53 bits
is printed as the next even one (`whole_numbers_print_unless_tied`).
-/

namespace ByteFormat

def Spelling.decimal (flag : Bool) (width : Option (Fin 10)) (precision : Fin 10) : Spelling where
  flag := flag
  width := width
  places := some (digitByte precision)
  length := .plain
  last := Conversion.float.letter

def printDecimal (profile : Profile) (flag : Bool) (width : Option (Fin 10)) (precision : Fin 10)
    (argument : Argument) : List UInt8 :=
  printBytes profile (Spelling.decimal flag width precision).bytes [argument]

/-- A fixed-point directive prints the field of its argument, fetched as a double. -/
theorem printDecimal_eq (profile : Profile) (flag : Bool) (width : Option (Fin 10))
    (precision : Fin 10) (argument : Argument) :
    printDecimal profile flag width precision argument =
      FixedPoint.field argument.toBinary64 precision
        { width := width.elim 0 Fin.val
          fill := (Spelling.decimal flag width precision).fill } := by
  have letter : (Spelling.decimal flag width precision).last = Conversion.float.letter := rfl
  have clean : (Spelling.decimal flag width precision).places ≠ some 0 := by
    simpa [Spelling.decimal] using digitByte_ne_zero precision
  have places : (Spelling.decimal flag width precision).directive.precision = precision := by
    simp [Spelling.decimal, Spelling.directive]
  rw [printDecimal, printBytes, print_spelling letter clean, Directive.write,
    Collector.toList_writeEach, Collector.toList_empty, List.nil_append, places]
  rfl

private theorem printDecimal_none (profile : Profile) (precision : Fin 10) (argument : Argument)
    (fill : UInt8) :
    printDecimal profile false none precision argument =
      FixedPoint.field argument.toBinary64 precision { width := 0, fill } := by
  rw [printDecimal_eq, FixedPoint.field_of_width_zero]
  exact FixedPoint.field_of_width_zero ..

/-- A width puts padding in front, as much as it leaves, and one byte more if there are no places.
-/
private theorem printDecimal_some (profile : Profile) (flag : Bool) (width precision : Fin 10)
    (argument : Argument) :
    printDecimal profile flag (some width) precision argument =
      List.replicate
          ((width + if precision = 0 then 1 else 0) -
            (printDecimal profile false none precision argument).length)
          (Spelling.decimal flag (some width) precision).fill ++
        printDecimal profile false none precision argument := by
  rw [printDecimal_none _ _ _ (Spelling.decimal flag (some width) precision).fill, printDecimal_eq,
    FixedPoint.field_eq_filled _ (by omega) (Nat.le_of_lt_succ width.isLt)]
  simp only [Fin.val_eq_zero_iff]
  rfl

/-- The width of a fixed-point directive covers the field if there are places. For every argument,
width and number of places, with or without the flag, the directive prints what it prints without a
width behind as much padding as the width leaves, and one byte more if there are no places. So the
output has the width or what it has without one, whichever is more, unless there are no places and
the output without a width is no wider than the width. -/
theorem width_covers_field_with_places (profile : Profile) (flag : Bool) (width precision : Fin 10)
    (argument : Argument) :
    (printDecimal profile flag (some width) precision argument =
      List.replicate
          ((width + if precision = 0 then 1 else 0) -
            (printDecimal profile false none precision argument).length)
          (Spelling.decimal flag (some width) precision).fill ++
        printDecimal profile false none precision argument) ∧
    ((printDecimal profile flag (some width) precision argument).length =
        max width.val (printDecimal profile false none precision argument).length ↔
      ¬ (precision = 0 ∧ (printDecimal profile false none precision argument).length ≤ width)) := by
  have filled := printDecimal_some profile flag width precision argument
  refine ⟨filled, ?_⟩
  rw [filled, List.length_append, List.length_replicate]
  split <;> omega

-- Two as `%5.0f`: the output takes six columns.
example :
    printDecimal { wide := true } false (some 5) 0
      (.double (.finite false 4503599627370496 (-51) (by decide))) = utf8 "   2.0" := by
  decide +kernel

/-- An argument holds a whole number: as an integer that is a double too, or as a double that fits
into a word. -/
inductive Argument.HoldsWhole (number : ℤ) : Argument → Prop
  | integer {argument : Argument} {double : Binary64} (kind : argument.value? = some number)
      (exact : double.value? = some (number : ℚ)) : HoldsWhole number argument
  | double {double : Binary64} (exact : double.value? = some (number : ℚ))
      (below : |number| < 2 ^ 64) : HoldsWhole number (.double double)

namespace Argument

private theorem abs_lt_of_value {argument : Argument} {value : ℤ}
    (kind : argument.value? = some value) :
    |value| < 2 ^ 64 := by
  rw [abs_lt]
  cases argument with
  | int small =>
    cases kind
    have low := small.le_toInt
    have high := small.toInt_lt
    omega
  | uint small =>
    cases kind
    have high := small.toNat_lt
    omega
  | long wide | longLong wide =>
    cases kind
    have low := wide.le_toInt
    have high := wide.toInt_lt
    omega
  | ulong wide | ulongLong wide | pointer wide =>
    cases kind
    have high := wide.toNat_lt
    omega
  | double real => cases kind
  | text located => cases kind

/-- A whole number that an argument holds is fetched exactly. -/
theorem HoldsWhole.toBinary64 {argument : Argument} {number : ℤ}
    (holds : argument.HoldsWhole number) :
    argument.toBinary64.value? = some (number : ℚ) ∧ |number| < 2 ^ 64 := by
  cases holds with
  | integer kind exact =>
    have below := abs_lt_of_value kind
    have small : |(number : ℚ)| < 2 ^ 64 := by exact_mod_cast below
    rw [toBinary64_of_value kind]
    exact ⟨Binary64.value?_ofInt (Binary64.representable_abs exact) (by linarith), below⟩
  | double exact below => exact ⟨exact, below⟩

end Argument

/-- Whole numbers print exactly, unless they are tied. For every argument that holds a whole number,
and every number of places, a fixed-point directive without a width prints a sign exactly for
numbers below zero, the digits of the magnitude, a point and one zero for each place, at least one;
except that without places an odd magnitude from `2^52` to `2^53` is printed as the next even one.
-/
theorem whole_numbers_print_unless_tied {argument : Argument} {number : ℤ}
    (holds : argument.HoldsWhole number) (profile : Profile) (precision : Fin 10) :
    (printDecimal profile false none precision argument =
      signBytes (number < 0) ++
        Radix.decimal.numeral (number.natAbs + FixedPoint.carry precision number.natAbs) ++
        '.'.toUInt8 :: List.replicate (max precision.val 1) '0'.toUInt8) ∧
    (printDecimal profile false none precision argument =
        Radix.decimal.signed number ++
          '.'.toUInt8 :: List.replicate (max precision.val 1) '0'.toUInt8 ↔
      ¬ (precision = 0 ∧ 2 ^ 52 ≤ number.natAbs ∧ number.natAbs < 2 ^ 53 ∧
        number.natAbs % 2 = 1)) := by
  obtain ⟨exact, below⟩ := holds.toBinary64
  have printed := (printDecimal_none profile precision argument ' '.toUInt8).trans
    (FixedPoint.field_of_whole exact below (Nat.le_of_lt_succ precision.isLt) ' '.toUInt8)
  refine ⟨printed, ?_⟩
  rw [printed, Radix.signed, List.append_left_inj, List.append_right_inj,
    Radix.decimal.numeral_injective.eq_iff, FixedPoint.carry]
  simp only [Fin.val_eq_zero_iff]
  split <;> omega

/-- The smallest odd number of 53 bits is printed as it is with one place, and as the next number
without places. -/
theorem whole_numbers_print_unless_tied_odd :
    (Argument.longLong 4503599627370497).HoldsWhole 4503599627370497 ∧
    printDecimal { wide := true } false none 1 (.longLong 4503599627370497) =
      utf8 "4503599627370497.0" ∧
    printDecimal { wide := true } false none 0 (.longLong 4503599627370497) =
      utf8 "4503599627370498.0" ∧
    utf8 "4503599627370497.0" =
      Radix.decimal.signed 4503599627370497 ++ '.'.toUInt8 :: List.replicate 1 '0'.toUInt8 ∧
    printDecimal { wide := true } false none 0 (.longLong 4503599627370497) ≠
      utf8 "4503599627370497.0" := by
  have double : (Binary64.finite false 4503599627370497 0 (by decide)).value? =
      some ((4503599627370497 : ℤ) : ℚ) := by
    norm_num [Binary64.value?, Binary64.sign]
  have holds : (Argument.longLong 4503599627370497).HoldsWhole 4503599627370497 :=
    .integer (by decide) double
  have text : utf8 "4503599627370497.0" =
      Radix.decimal.signed 4503599627370497 ++ '.'.toUInt8 :: List.replicate 1 '0'.toUInt8 := by
    decide +kernel
  obtain ⟨_, exact⟩ := whole_numbers_print_unless_tied holds { wide := true } 1
  obtain ⟨carried, tied⟩ := whole_numbers_print_unless_tied holds { wide := true } 0
  refine ⟨holds, (exact.mpr (by decide)).trans text.symm, carried.trans (by decide +kernel), text,
    ?_⟩
  rw [text]
  exact fun same => tied.mp same (by decide)

end ByteFormat
