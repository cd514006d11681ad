import ByteFormat.Binary64.Bits
import ByteFormat.Call.Slot

/-! # Operands and casts

An operand is a value of a typed expression. A slot casts its operand step by step and wraps the
result as an argument of the kind that the slot's directive fetches. Casts between integers keep
the low bits, casts from doubles to integers truncate and saturate, and a cast that the operand's
type does not admit has no result. Without a format, an operand's own type decides which kind of
argument it becomes.
-/

namespace ByteFormat.Call

/-- A typed value. The two word types are integers of the size of an address; the integers of 128
bits are given by their bits. -/
inductive Operand where
  | int8 (value : Int8)
  | int16 (value : Int16)
  | int32 (value : Int32)
  | int64 (value : Int64)
  | int128 (value : BitVec 128)
  | intWord (value : Int64)
  | uint8 (value : UInt8)
  | uint16 (value : UInt16)
  | uint32 (value : UInt32)
  | uint64 (value : UInt64)
  | uint128 (value : BitVec 128)
  | uintWord (value : UInt64)
  | single (value : Binary32)
  | double (value : Binary64)
  | char (value : Char)
  | bool (value : Bool)
  | text (value : Text)
  | pointer (address : UInt64)
  | reference (address : UInt64)
deriving DecidableEq

inductive Number where
  | integer (value : Int)
  | real (value : Binary64)
deriving DecidableEq

namespace Number

def toInt32 : Number → Int32
  | .integer value => Int32.ofInt value
  | .real value => value.toInt32

def toInt64 : Number → Int64
  | .integer value => Int64.ofInt value
  | .real value => value.toInt64

def toBinary64 : Number → Binary64
  | .integer value => .ofInt value
  | .real value => value

end Number

namespace Operand

def number? : Operand → Option Number
  | .int8 value => some (.integer value.toInt)
  | .int16 value => some (.integer value.toInt)
  | .int32 value => some (.integer value.toInt)
  | .int64 value => some (.integer value.toInt)
  | .int128 value => some (.integer value.toInt)
  | .intWord value => some (.integer value.toInt)
  | .uint8 value => some (.integer value.toNat)
  | .uint16 value => some (.integer value.toNat)
  | .uint32 value => some (.integer value.toNat)
  | .uint64 value => some (.integer value.toNat)
  | .uint128 value => some (.integer value.toNat)
  | .uintWord value => some (.integer value.toNat)
  | .single value => some (.real value.widen)
  | .double value => some (.real value)
  | _ => none

/-- The number of an operand that can be cast to an integer: a character counts by its code point,
a truth value as one or zero, a raw pointer by its address. -/
def scalar? : Operand → Option Number
  | .char value => some (.integer value.toNat)
  | .bool value => some (.integer (if value then 1 else 0))
  | .pointer address => some (.integer address.toNat)
  | operand => operand.number?

/-- The address of an operand that a pointer slot takes. A text is a reference to its bytes. -/
def address? : Operand → Option UInt64
  | .uintWord value => some value
  | .text value => some value.address
  | .pointer address => some address
  | .reference address => some address
  | _ => none

/-- The bytes of an operand that a text slot takes. -/
def text? : Operand → Option Text
  | .text value => some value
  | _ => none

/-- The argument an operand becomes by its own type. Truth values, references and integers of 128
bits become none. -/
def toArgument? : Operand → Option Argument
  | .int8 value => some (.int value.toInt32)
  | .int16 value => some (.int value.toInt32)
  | .int32 value => some (.int value)
  | .uint8 value => some (.uint value.toUInt32)
  | .uint16 value => some (.uint value.toUInt32)
  | .uint32 value => some (.uint value)
  | .int64 value => some (.longLong value)
  | .uint64 value => some (.ulongLong value)
  | .intWord value => some (.longLong value)
  | .uintWord value => some (.ulongLong value)
  | .single value => some (.double value.widen)
  | .double value => some (.double value)
  | .char value => some (.int (Int32.ofInt value.toNat))
  | .text value => some (.text value)
  | .pointer address => some (.pointer address)
  | .bool _ => none
  | .reference _ => none
  | .int128 _ => none
  | .uint128 _ => none

end Operand

inductive Kind where
  | int
  | uint
  | long
  | ulong
  | longLong
  | ulongLong
  | double
  | pointer
  | text
deriving DecidableEq, Repr

/-- The steps by which a slot casts its operand. -/
inductive Cast where
  | toInt
  | toLong
  | toLongLong
  | toUInt
  | toULong
  | toULongLong
  | toDouble
  | bytes
  | address
deriving DecidableEq, Repr

def Cast.convert? : Cast → Operand → Option Operand
  | .toInt, operand => operand.scalar?.map fun number => .int32 number.toInt32
  | .toLong, operand => operand.scalar?.map fun number => .int64 number.toInt64
  | .toLongLong, operand => operand.scalar?.map fun number => .int64 number.toInt64
  | .toUInt, .int64 value => some (.uint32 value.toUInt64.toUInt32)
  | .toULong, .int64 value => some (.uint64 value.toUInt64)
  | .toULongLong, .int64 value => some (.uint64 value.toUInt64)
  | .toDouble, operand => operand.number?.map fun number => .double number.toBinary64
  | .bytes, operand => operand.text?.map .text
  | .address, operand => operand.address?.map .pointer
  | _, _ => none

/-- Wraps a value whose type is that of the kind. -/
def Kind.wrap? : Kind → Operand → Option Argument
  | .int, .int32 value => some (.int value)
  | .uint, .uint32 value => some (.uint value)
  | .long, .int64 value => some (.long value)
  | .ulong, .uint64 value => some (.ulong value)
  | .longLong, .int64 value => some (.longLong value)
  | .ulongLong, .uint64 value => some (.ulongLong value)
  | .double, .double value => some (.double value)
  | .pointer, .pointer address => some (.pointer address)
  | .text, .text value => some (.text value)
  | _, _ => none

namespace Slot

def kind : Slot → Kind
  | .char => .int
  | .text => .text
  | .float => .double
  | .pointer => .pointer
  | .signed .plain => .int
  | .signed .long => .long
  | .signed .longLong => .longLong
  | .unsigned .plain => .uint
  | .unsigned .long => .ulong
  | .unsigned .longLong => .ulongLong

/-- The casts of a slot, innermost first. Unsigned slots go through the widest signed type, so that
a negative operand keeps its bits. -/
def casts : Slot → List Cast
  | .char => [.toInt]
  | .text => [.bytes]
  | .float => [.toDouble]
  | .pointer => [.address]
  | .signed .plain => [.toInt]
  | .signed .long => [.toLong]
  | .signed .longLong => [.toLongLong]
  | .unsigned .plain => [.toLongLong, .toUInt]
  | .unsigned .long => [.toLongLong, .toULong]
  | .unsigned .longLong => [.toLongLong, .toULongLong]

/-- The argument a slot makes of an operand, if the operand's type is one it takes. -/
def wrap? (slot : Slot) (operand : Operand) : Option Argument :=
  (slot.casts.foldlM (fun value (step : Cast) => step.convert? value) operand).bind slot.kind.wrap?

end Slot

end ByteFormat.Call
