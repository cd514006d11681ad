import ByteFormat.Binary64.Arithmetic
import ByteFormat.Bytes
import ByteFormat.Format.Directive

/-! # Arguments

An argument carries a value of one of nine kinds. A directive fetches it in the form it needs, and
no fetch fails: integers are cut or extended to the requested width, doubles are truncated to
integers and integers rounded to doubles, a text fetched as an integer is its address, and what is
not a text fetched as a text is empty.
-/

namespace ByteFormat

/-- A byte string and the address at which it lies. -/
structure Text where
  bytes : List UInt8
  address : UInt64
deriving DecidableEq, Repr

inductive Argument where
  | int (value : Int32)
  | uint (value : UInt32)
  | long (value : Int64)
  | ulong (value : UInt64)
  | longLong (value : Int64)
  | ulongLong (value : UInt64)
  | double (value : Binary64)
  | pointer (address : UInt64)
  | text (located : Text)
deriving DecidableEq

/-- The words a build renders integers with: with the wide word, doubled length letters have a
renderer of their own; without it they share the native one. -/
structure Profile where
  wide : Bool
deriving DecidableEq, Repr

def Profile.wordBytes : Nat := 8

def Profile.wideWordBytes : Nat := 8

/-- An integer fetched from an argument, as sign and magnitude in a native or a wide word. -/
inductive Fetched where
  | native (magnitude : UInt64) (negative : Bool)
  | wide (magnitude : UInt64) (negative : Bool)
deriving DecidableEq, Repr

namespace Fetched

/-- Sign and magnitude in a native word, of the value that the signedness of a conversion selects.
-/
def ofNative (signedValue : Int64) (unsignedValue : UInt64) (signed : Bool) : Fetched :=
  if signed then .native (UInt64.ofNat signedValue.toInt.natAbs) (decide (signedValue < 0))
  else .native unsignedValue false

def ofWide (bits : UInt64) (signed : Bool) : Fetched :=
  if signed then
    let value := bits.toInt64
    .wide (UInt64.ofNat value.toInt.natAbs) (decide (value < 0))
  else .wide bits false

end Fetched

namespace Argument

/-- The 64-bit pattern of an argument. Signed kinds are sign extended, a double is truncated and
saturated to a signed word, and a text gives its address. -/
def bits : Argument → UInt64
  | .int value => value.toInt64.toUInt64
  | .uint value => value.toUInt64
  | .long value => value.toUInt64
  | .ulong value => value
  | .longLong value => value.toUInt64
  | .ulongLong value => value
  | .double value => value.toInt64.toUInt64
  | .pointer address => address
  | .text located => located.address

/-- Fetches an integer of the given length. Doubled length letters are fetched in the wide word if
the build has one, and like a single letter otherwise. -/
def integer (profile : Profile) (length : Length) (signed : Bool) (argument : Argument) :
    Fetched :=
  match length with
  | .longLong =>
      if profile.wide then .ofWide argument.bits signed
      else .ofNative argument.bits.toInt64 argument.bits signed
  | .long => .ofNative argument.bits.toInt64 argument.bits signed
  | .plain =>
      .ofNative argument.bits.toUInt32.toInt32.toInt64 argument.bits.toUInt32.toUInt64 signed

/-- Fetches a byte: the low byte of the pattern. -/
def byte (argument : Argument) : UInt8 :=
  argument.bits.toUInt8

/-- Fetches a double: the nearest one to an integer, and zero for a text. -/
def toBinary64 : Argument → Binary64
  | .int value => .ofInt value.toInt
  | .uint value => .ofNat value.toNat
  | .long value => .ofInt value.toInt
  | .ulong value => .ofNat value.toNat
  | .longLong value => .ofInt value.toInt
  | .ulongLong value => .ofNat value.toNat
  | .double value => value
  | .pointer address => .ofNat address.toNat
  | .text _ => .zero false

/-- Fetches a text, which ends at its first zero byte. -/
def string : Argument → List UInt8
  | .text located => untilNul located.bytes
  | _ => []

/-- Equality of arguments: same kind and equal values. Doubles compare as numbers and texts by
their bytes, wherever they lie. -/
def equal : Argument → Argument → Bool
  | .int left, .int right => left == right
  | .uint left, .uint right => left == right
  | .long left, .long right => left == right
  | .ulong left, .ulong right => left == right
  | .longLong left, .longLong right => left == right
  | .ulongLong left, .ulongLong right => left == right
  | .double left, .double right => left.equal right
  | .pointer left, .pointer right => left == right
  | .text left, .text right => left.bytes == right.bytes
  | _, _ => false

end Argument

end ByteFormat
