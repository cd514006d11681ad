import ByteFormat.Argument

/-! # Slots

A slot is a place in a format that takes an operand of a call. Slots are found by one pass over the
bytes of the format that keeps nothing but the stage reached inside a directive, and no literal
text. A format that ends inside a directive is refused.
-/

namespace ByteFormat.Call

/-- What a directive asks of its operand. -/
inductive Slot where
  | char
  | text
  | float
  | pointer
  | signed (length : Length)
  | unsigned (length : Length)
deriving DecidableEq, Repr

/-- The slot opened by a specifier byte; other bytes are echoed and open none. -/
def Slot.ofByte? (byte : UInt8) (length : Length) : Option Slot :=
  if byte = 'c'.toUInt8 then some .char
  else if byte = 's'.toUInt8 then some .text
  else if byte = 'f'.toUInt8 then some .float
  else if byte = 'p'.toUInt8 then some .pointer
  else if byte = 'd'.toUInt8 then some (.signed length)
  else if byte = 'u'.toUInt8 ∨ byte = 'x'.toUInt8 ∨ byte = 'b'.toUInt8 then
    some (.unsigned length)
  else none

/-- How far the bytes read so far reach into a directive. -/
inductive Stage where
  /-- Outside of any directive. -/
  | outside
  /-- Behind the percent sign. -/
  | percent
  /-- Behind the zero flag. -/
  | zero
  /-- Behind the width. -/
  | width
  /-- Behind the point. -/
  | point
  /-- Behind the byte that follows the point. -/
  | precision
  /-- Behind the first length letter. -/
  | long
  /-- Behind the second length letter. -/
  | longLong
deriving DecidableEq, Repr

namespace Stage

def isDigit (byte : UInt8) : Bool :=
  '0'.toUInt8 ≤ byte && byte ≤ '9'.toUInt8

/-- Behind the optional parts up to the precision: a length letter or the specifier. -/
def lengthOrSpecifier (byte : UInt8) : Stage × Option Slot :=
  if byte = 'l'.toUInt8 then (.long, none) else (.outside, Slot.ofByte? byte .plain)

/-- Behind the width: the point, or what can follow it. -/
def pointOrLater (byte : UInt8) : Stage × Option Slot :=
  if byte = '.'.toUInt8 then (.point, none) else lengthOrSpecifier byte

/-- Behind the zero flag: the width, or what can follow it. -/
def widthOrLater (byte : UInt8) : Stage × Option Slot :=
  if isDigit byte then (.width, none) else pointOrLater byte

/-- Reads one byte: the stage after it, and the slot it completes. -/
def step (byte : UInt8) : Stage → Stage × Option Slot
  | .outside => if byte = '%'.toUInt8 then (.percent, none) else (.outside, none)
  | .percent => if byte = '0'.toUInt8 then (.zero, none) else widthOrLater byte
  | .zero => widthOrLater byte
  | .width => pointOrLater byte
  | .point => (.precision, none)
  | .precision => lengthOrSpecifier byte
  | .long =>
      if byte = 'l'.toUInt8 then (.longLong, none) else (.outside, Slot.ofByte? byte .long)
  | .longLong => (.outside, Slot.ofByte? byte .longLong)

end Stage

/-- The slots of the rest of a format, or nothing if it ends inside a directive. -/
def slotsFrom? (stage : Stage) : List UInt8 → Option (List Slot)
  | [] => if stage = .outside then some [] else none
  | byte :: rest =>
      let (stage, slot) := stage.step byte
      (slotsFrom? stage rest).map (slot.toList ++ ·)

/-- The slots of a format, which ends at its first zero byte. -/
def slots? (format : List UInt8) : Option (List Slot) :=
  slotsFrom? .outside (untilNul format)

end ByteFormat.Call
