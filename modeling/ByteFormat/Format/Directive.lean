import ByteFormat.Numeral.Field

/-! # Directives

A directive is a percent sign followed, all but the last optionally, by a zero flag, a width digit,
a point with one further byte, one or two length letters, and the specifier byte. Every part is
taken greedily. The byte after the point is always consumed, and is a precision only if it is a
digit. A byte that names no conversion is echoed, so a doubled percent sign stands for itself.
-/

namespace ByteFormat

/-- A conversion: how an argument is fetched and rendered. -/
inductive Conversion where
  | char
  | text
  | signed
  | unsigned
  | hex
  | binary
  | pointer
  | float
deriving DecidableEq, Repr

namespace Conversion

/-- The byte that selects a conversion. -/
def letter : Conversion → UInt8
  | .char => 'c'.toUInt8
  | .text => 's'.toUInt8
  | .signed => 'd'.toUInt8
  | .unsigned => 'u'.toUInt8
  | .hex => 'x'.toUInt8
  | .binary => 'b'.toUInt8
  | .pointer => 'p'.toUInt8
  | .float => 'f'.toUInt8

def ofLetter? (byte : UInt8) : Option Conversion :=
  if byte = 'c'.toUInt8 then some .char
  else if byte = 's'.toUInt8 then some .text
  else if byte = 'd'.toUInt8 then some .signed
  else if byte = 'u'.toUInt8 then some .unsigned
  else if byte = 'x'.toUInt8 then some .hex
  else if byte = 'b'.toUInt8 then some .binary
  else if byte = 'p'.toUInt8 then some .pointer
  else if byte = 'f'.toUInt8 then some .float
  else none

/-- The name of a conversion in log records. -/
def name : Conversion → String
  | .char => "Char"
  | .text => "Str"
  | .signed => "Signed"
  | .unsigned => "Unsigned"
  | .hex => "Hex"
  | .binary => "Binary"
  | .pointer => "Pointer"
  | .float => "Float"

/-- The radix of a conversion; those that write no integer count as decimal. -/
def radix : Conversion → Radix
  | .hex | .pointer => .hexadecimal
  | .binary => .binary
  | _ => .decimal

/-- Whether the argument is fetched as a signed integer. -/
def isSigned : Conversion → Bool
  | .signed => true
  | _ => false

theorem ofLetter?_eq_some_iff (byte : UInt8) (conversion : Conversion) :
    ofLetter? byte = some conversion ↔ byte = conversion.letter := by
  constructor
  · intro selected
    simp only [ofLetter?] at selected
    repeat' split at selected
    all_goals cases selected <;> assumption
  · rintro rfl
    cases conversion <;> decide

end Conversion

/-- The last byte of a directive, understood. -/
inductive Specifier where
  /-- Takes an argument and renders it. -/
  | convert (conversion : Conversion)
  /-- Names no conversion: the byte itself is written and no argument is taken. -/
  | echo (byte : UInt8)
deriving DecidableEq, Repr

namespace Specifier

/-- Every byte is a specifier. -/
def ofByte (byte : UInt8) : Specifier :=
  match Conversion.ofLetter? byte with
  | some conversion => .convert conversion
  | none => .echo byte

def byte : Specifier → UInt8
  | .convert conversion => conversion.letter
  | .echo byte => byte

/-- The radix of a specifier; an echoed byte counts as decimal. -/
def radix : Specifier → Radix
  | .convert conversion => conversion.radix
  | .echo _ => .decimal

def isSigned : Specifier → Bool
  | .convert conversion => conversion.isSigned
  | .echo _ => false

@[simp] theorem byte_ofByte (byte : UInt8) : (ofByte byte).byte = byte := by
  simp only [ofByte]
  split
  · next conversion selected => exact ((Conversion.ofLetter?_eq_some_iff _ _).mp selected).symm
  · rfl

end Specifier

/-- The length letters of a directive: the width at which an integer is fetched. -/
inductive Length where
  | plain
  | long
  | longLong
deriving DecidableEq, Repr

structure Directive where
  specifier : Specifier
  length : Length := .plain
  padding : Padding := { width := 0, fill := ' '.toUInt8 }
  precision : Nat := 0
deriving DecidableEq, Repr

namespace Directive

/-- The directive that prints an address: all sixteen hexadecimal digits of a 64-bit word. -/
def pointer (directive : Directive) : Directive :=
  { directive with length := .longLong, padding := { width := 16, fill := '0'.toUInt8 } }

def digit? (byte : UInt8) : Option Nat :=
  if '0'.toUInt8 ≤ byte ∧ byte ≤ '9'.toUInt8 then some (byte - '0'.toUInt8).toNat else none

/-- Reads the zero flag: the fill byte. -/
def readFill : List UInt8 → UInt8 × List UInt8
  | [] => (' '.toUInt8, [])
  | byte :: rest =>
      if byte = '0'.toUInt8 then ('0'.toUInt8, rest) else (' '.toUInt8, byte :: rest)

def readWidth : List UInt8 → Nat × List UInt8
  | [] => (0, [])
  | byte :: rest =>
      match digit? byte with
      | some width => (width, rest)
      | none => (0, byte :: rest)

/-- Reads the point and the byte after it, which has to be there. -/
def readPrecision? : List UInt8 → Option (Nat × List UInt8)
  | [] => some (0, [])
  | byte :: rest =>
      if byte = '.'.toUInt8 then
        match rest with
        | [] => none
        | places :: rest => some ((digit? places).getD 0, rest)
      else some (0, byte :: rest)

/-- Reads up to two length letters. -/
def readLength : List UInt8 → Length × List UInt8
  | [] => (.plain, [])
  | byte :: rest =>
      if byte = 'l'.toUInt8 then
        match rest with
        | [] => (.long, [])
        | second :: rest =>
            if second = 'l'.toUInt8 then (.longLong, rest) else (.long, second :: rest)
      else (.plain, byte :: rest)

/-- Reads a directive after its percent sign and returns what follows it. There is none if the
format ends before the specifier byte. -/
def read? (bytes : List UInt8) : Option (Directive × List UInt8) :=
  let (fill, bytes) := readFill bytes
  let (width, bytes) := readWidth bytes
  match readPrecision? bytes with
  | none => none
  | some (precision, bytes) =>
      let (length, bytes) := readLength bytes
      match bytes with
      | [] => none
      | byte :: rest =>
          some ({ specifier := .ofByte byte, length, padding := { width, fill }, precision }, rest)

theorem readFill_suffix (bytes : List UInt8) : (readFill bytes).2 <:+ bytes := by
  cases bytes with
  | nil => exact List.suffix_refl _
  | cons byte rest =>
    simp only [readFill]
    split
    · exact List.suffix_cons byte rest
    · exact List.suffix_refl _

theorem readWidth_suffix (bytes : List UInt8) : (readWidth bytes).2 <:+ bytes := by
  cases bytes with
  | nil => exact List.suffix_refl _
  | cons byte rest =>
    simp only [readWidth]
    split
    · exact List.suffix_cons byte rest
    · exact List.suffix_refl _

theorem readPrecision?_suffix {bytes rest : List UInt8} {precision : Nat}
    (read : readPrecision? bytes = some (precision, rest)) : rest <:+ bytes := by
  match bytes with
  | [] => cases read; exact List.suffix_refl _
  | [byte] =>
    simp only [readPrecision?] at read
    split at read <;> cases read
    exact List.suffix_refl _
  | byte :: places :: _ =>
    simp only [readPrecision?] at read
    split at read <;> cases read
    · exact (List.suffix_cons places rest).trans (List.suffix_cons byte _)
    · exact List.suffix_refl _

private theorem readLength_suffix (bytes : List UInt8) : (readLength bytes).2 <:+ bytes := by
  match bytes with
  | [] => exact List.suffix_refl _
  | [byte] => simp only [readLength]; split <;> simp
  | byte :: second :: rest =>
    simp only [readLength]
    split
    · split
      · exact (List.suffix_cons second rest).trans (List.suffix_cons byte _)
      · exact List.suffix_cons byte _
    · exact List.suffix_refl _

/-- A directive ends with its specifier byte, and leaves the bytes behind it untouched. -/
theorem read?_suffix {bytes rest : List UInt8} {directive : Directive}
    (read : read? bytes = some (directive, rest)) : directive.specifier.byte :: rest <:+ bytes := by
  simp only [read?] at read
  split at read
  · contradiction
  · next precision afterPrecision found =>
    split at read
    · contradiction
    · next byte tail remaining =>
      cases read
      rw [Specifier.byte_ofByte, ← remaining]
      exact (readLength_suffix afterPrecision).trans <| (readPrecision?_suffix found).trans <|
        (readWidth_suffix _).trans (readFill_suffix bytes)

end Directive

end ByteFormat
