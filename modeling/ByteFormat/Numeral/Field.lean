import ByteFormat.Numeral.Magnitude

/-! # Numeric fields

A numeric field is right aligned: digits, a minus sign for negative numbers, and padding up to the
requested width. It is built from the right into a scratch area that holds 64 binary digits, a sign
and one column to spare; wider requests are clamped to that size. A number that is wider than its
field is written in full.
-/

namespace ByteFormat

/-- How a field is widened: to how many columns, and with which byte. -/
structure Padding where
  width : Nat
  fill : UInt8
deriving DecidableEq, Repr

def Scratch.capacity : Nat := 66

/-- The area in which a field is built, from its last cell to its first. The cells from `position`
on are written. -/
structure Scratch where
  cells : Vector UInt8 Scratch.capacity
  position : Nat
  inside : position ≤ Scratch.capacity
deriving DecidableEq, Repr

namespace Scratch

def empty : Scratch where
  cells := Vector.replicate capacity 0
  position := capacity
  inside := Nat.le_refl capacity

/-- Writes a byte in front of the others; a byte for which no cell is left is dropped. -/
def push (scratch : Scratch) (byte : UInt8) : Scratch :=
  if room : 0 < scratch.position then
    { cells := scratch.cells.set (scratch.position - 1) byte (by have := scratch.inside; omega)
      position := scratch.position - 1
      inside := by have := scratch.inside; omega }
  else scratch

/-- What is written, the leftmost byte first. -/
def bytes (scratch : Scratch) : List UInt8 :=
  scratch.cells.toList.drop scratch.position

@[simp] theorem bytes_empty : empty.bytes = [] := by
  simp [bytes, empty]

theorem length_bytes (scratch : Scratch) :
    scratch.bytes.length = capacity - scratch.position := by
  simp [bytes]

/-- A byte comes in front of what is written as long as that leaves a cell. -/
theorem bytes_push (scratch : Scratch) (byte : UInt8) :
    (scratch.push byte).bytes =
      if scratch.bytes.length < capacity then byte :: scratch.bytes else scratch.bytes := by
  have inside := scratch.inside
  have length := scratch.length_bytes
  by_cases room : 0 < scratch.position
  · have cell : scratch.position - 1 < scratch.cells.toList.length := by
      rw [Vector.length_toList]
      omega
    have next : scratch.position - 1 + 1 = scratch.position := by omega
    rw [if_pos (by omega), push, dif_pos room]
    simp only [bytes]
    rw [Vector.toList_set, List.drop_eq_getElem_cons (by rwa [List.length_set]),
      List.getElem_set_self, List.drop_set_of_lt (by omega), next]
  · rw [if_neg (by omega), push, dif_neg room]

/-- The digit byte of a value below sixteen; letters are upper case. -/
def digit (value : UInt8) : UInt8 :=
  if value < 10 then '0'.toUInt8 + value else 'A'.toUInt8 + (value - 10)

/-- Writes the digits of a word from the last to the first, each of which takes a column of the
width; zero has one digit. -/
def pushDigits (radix : Radix) (magnitude : Magnitude) (scratch : Scratch) (width : Nat) :
    Scratch × Nat :=
  let pushed := scratch.push (digit (magnitude.remainder radix.base))
  if (magnitude.quotient radix.base).isZero then (pushed, width - 1)
  else pushDigits radix (magnitude.quotient radix.base) pushed (width - 1)
termination_by magnitude.toNat
decreasing_by exact Magnitude.quotient_lt (by assumption)

/-- Writes the sign of a negative number, which takes a column of the width. -/
def pushSign (negative : Bool) (scratch : Scratch) (width : Nat) : Scratch × Nat :=
  if negative then (scratch.push '-'.toUInt8, width - 1) else (scratch, width)

/-- Fills the columns of the width that are left. -/
def pad (fill : UInt8) (scratch : Scratch) (width : Nat) : Scratch :=
  Nat.repeat (push · fill) width scratch

end Scratch

/-- The field of an integer given by sign and magnitude. -/
def Magnitude.field (magnitude : Magnitude) (radix : Radix) (negative : Bool) (padding : Padding) :
    List UInt8 :=
  let digits := Scratch.pushDigits radix magnitude .empty (min padding.width Scratch.capacity)
  let signed := Scratch.pushSign negative digits.1 digits.2
  (Scratch.pad padding.fill signed.1 signed.2).bytes

end ByteFormat
