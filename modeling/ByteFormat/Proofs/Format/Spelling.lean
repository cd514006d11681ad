import ByteFormat.Format.Token
import Mathlib.Data.List.Basic

/-! # How directives are written

A spelling says which of the optional parts of a directive are written, and with which bytes. It is
greedy when no part that it leaves out could be read from the bytes behind it. Reading inverts
greedy spellings and succeeds on nothing else: `Directive.read?_eq_some_iff` is the grammar of
directives. A directive whose last byte is the letter of a conversion has only one spelling that is
not greedy, a width of zero without the flag, and its bytes are those of the flag alone.
-/

namespace ByteFormat

def Length.letters : Length → List UInt8
  | .plain => []
  | .long => ['l'.toUInt8]
  | .longLong => ['l'.toUInt8, 'l'.toUInt8]

def flagBytes (flag : Bool) : List UInt8 :=
  if flag then ['0'.toUInt8] else []

def digitByte (value : Nat) : UInt8 :=
  '0'.toUInt8 + UInt8.ofNat value

def widthBytes : Option (Fin 10) → List UInt8
  | none => []
  | some digit => [digitByte digit]

def pointBytes : Option UInt8 → List UInt8
  | none => []
  | some places => ['.'.toUInt8, places]

/-- The parts of a written directive. -/
structure Spelling where
  /-- Whether the zero flag is written. -/
  flag : Bool
  /-- The width digit, if one is written. -/
  width : Option (Fin 10)
  /-- The byte behind the point, if a point is written. -/
  places : Option UInt8
  /-- The length letters. -/
  length : Length
  /-- The specifier byte. -/
  last : UInt8
deriving DecidableEq, Repr

theorem digitByte_ne_zero : ∀ digit : Fin 10, digitByte digit ≠ 0 := by
  decide

@[simp] theorem Specifier.ofByte_letter (conversion : Conversion) :
    ofByte conversion.letter = .convert conversion := by
  rw [ofByte, (Conversion.ofLetter?_eq_some_iff _ conversion).mpr rfl]

namespace Directive

@[simp] theorem digit?_digitByte : ∀ digit : Fin 10, digit? (digitByte digit) = some digit.val := by
  decide

private theorem digit?_lt {byte : UInt8} {value : Nat} (found : digit? byte = some value) :
    value < 10 := by
  simp only [digit?] at found
  split at found
  · next range =>
    cases found
    have low : 48 ≤ byte.toNat := range.1
    have high : byte.toNat ≤ 57 := range.2
    have difference : (byte - '0'.toUInt8).toNat = byte.toNat - 48 :=
      UInt8.toNat_sub_of_le _ _ range.1
    omega
  · cases found

private theorem eq_digitByte_of_digit? {byte : UInt8} {value : Nat}
    (found : digit? byte = some value) :
    byte = digitByte value := by
  simp only [digit?] at found
  split at found
  · cases found
    rw [digitByte, UInt8.ofNat_toNat, UInt8.add_comm, UInt8.sub_add_cancel]
  · cases found

theorem readFill_eq_iff {bytes rest : List UInt8} {fill : UInt8} :
    readFill bytes = (fill, rest) ↔
      ∃ flag : Bool, fill = (if flag then '0'.toUInt8 else ' '.toUInt8) ∧
        bytes = flagBytes flag ++ rest ∧ (flag = false → rest.head? ≠ some '0'.toUInt8) := by
  constructor
  · intro read
    cases bytes with
    | nil =>
      cases read
      exact ⟨false, rfl, rfl, by simp⟩
    | cons byte tail =>
      simp only [readFill] at read
      split at read
      · next zero =>
        cases read
        exact ⟨true, rfl, by simp [flagBytes, zero], by simp⟩
      · next other =>
        cases read
        exact ⟨false, rfl, rfl, by simpa using other⟩
  · rintro ⟨flag, rfl, rfl, stop⟩
    cases flag with
    | true => simp [flagBytes, readFill]
    | false =>
      cases rest with
      | nil => rfl
      | cons byte tail =>
        have other : byte ≠ '0'.toUInt8 := by simpa using stop rfl
        simp [flagBytes, readFill, other]

theorem readWidth_eq_iff {bytes rest : List UInt8} {width : Nat} :
    readWidth bytes = (width, rest) ↔
      ∃ digit : Option (Fin 10), width = digit.elim 0 Fin.val ∧ bytes = widthBytes digit ++ rest ∧
        (digit = none → rest.head?.bind digit? = none) := by
  constructor
  · intro read
    cases bytes with
    | nil =>
      cases read
      exact ⟨none, rfl, rfl, fun _ => rfl⟩
    | cons byte tail =>
      simp only [readWidth] at read
      split at read
      · next value found =>
        cases read
        refine ⟨some ⟨width, digit?_lt found⟩, rfl, ?_, by simp⟩
        simp [widthBytes, eq_digitByte_of_digit? found]
      · next missing =>
        cases read
        exact ⟨none, rfl, rfl, fun _ => by simpa using missing⟩
  · rintro ⟨digit, rfl, rfl, stop⟩
    cases digit with
    | some digit => simp [widthBytes, readWidth]
    | none =>
      cases rest with
      | nil => rfl
      | cons byte tail =>
        have missing : digit? byte = none := by simpa using stop rfl
        simp [widthBytes, readWidth, missing]

theorem readPrecision?_eq_some_iff {bytes rest : List UInt8} {precision : Nat} :
    readPrecision? bytes = some (precision, rest) ↔
      ∃ places : Option UInt8, precision = (places.bind digit?).getD 0 ∧
        bytes = pointBytes places ++ rest ∧ (places = none → rest.head? ≠ some '.'.toUInt8) := by
  constructor
  · intro read
    match bytes with
    | [] =>
      cases read
      exact ⟨none, rfl, rfl, by simp⟩
    | [byte] =>
      simp only [readPrecision?] at read
      split at read
      · cases read
      · next other =>
        cases read
        exact ⟨none, rfl, rfl, by simpa using other⟩
    | byte :: places :: tail =>
      simp only [readPrecision?] at read
      split at read
      · next point =>
        cases read
        exact ⟨some places, rfl, by simp [pointBytes, point], by simp⟩
      · next other =>
        cases read
        exact ⟨none, rfl, rfl, by simpa using other⟩
  · rintro ⟨places, rfl, rfl, stop⟩
    cases places with
    | some places => simp [pointBytes, readPrecision?]
    | none =>
      cases rest with
      | nil => rfl
      | cons byte tail =>
        have other : byte ≠ '.'.toUInt8 := by simpa using stop rfl
        simp [pointBytes, readPrecision?, other]

theorem readLength_eq_iff {bytes rest : List UInt8} {length : Length} :
    readLength bytes = (length, rest) ↔
      bytes = length.letters ++ rest ∧
        (length ≠ .longLong → rest.head? ≠ some 'l'.toUInt8) := by
  constructor
  · intro read
    match bytes with
    | [] =>
      cases read
      exact ⟨rfl, by simp⟩
    | [byte] =>
      simp only [readLength] at read
      split at read
      · next letter =>
        cases read
        exact ⟨by simp [Length.letters, letter], by simp⟩
      · next other =>
        cases read
        exact ⟨rfl, fun _ => by simpa using other⟩
    | byte :: second :: tail =>
      simp only [readLength] at read
      split at read
      · next letter =>
        split at read
        · next again =>
          cases read
          exact ⟨by simp [Length.letters, letter, again], by simp⟩
        · next other =>
          cases read
          exact ⟨by simp [Length.letters, letter], fun _ => by simpa using other⟩
      · next other =>
        cases read
        exact ⟨rfl, fun _ => by simpa using other⟩
  · rintro ⟨rfl, stop⟩
    cases length with
    | longLong => simp [Length.letters, readLength]
    | long =>
      cases rest with
      | nil => rfl
      | cons byte tail =>
        have other : byte ≠ 'l'.toUInt8 := by simpa using stop (by decide)
        simp [Length.letters, readLength, other]
    | plain =>
      cases rest with
      | nil => rfl
      | cons byte tail =>
        have other : byte ≠ 'l'.toUInt8 := by simpa using stop (by decide)
        simp [Length.letters, readLength, other]

end Directive

namespace Spelling

def afterPoint (spelling : Spelling) : List UInt8 :=
  spelling.length.letters ++ [spelling.last]

def afterWidth (spelling : Spelling) : List UInt8 :=
  pointBytes spelling.places ++ spelling.afterPoint

def afterFlag (spelling : Spelling) : List UInt8 :=
  widthBytes spelling.width ++ spelling.afterWidth

/-- The bytes behind the percent sign. -/
def body (spelling : Spelling) : List UInt8 :=
  flagBytes spelling.flag ++ spelling.afterFlag

def bytes (spelling : Spelling) : List UInt8 :=
  '%'.toUInt8 :: spelling.body

/-- No part that is left out can be read from the bytes that follow in its place. -/
structure Greedy (spelling : Spelling) : Prop where
  flag : spelling.flag = false → spelling.afterFlag.head? ≠ some '0'.toUInt8
  width : spelling.width = none → spelling.afterWidth.head?.bind Directive.digit? = none
  places : spelling.places = none → spelling.afterPoint.head? ≠ some '.'.toUInt8
  length : spelling.length ≠ .longLong → spelling.last ≠ 'l'.toUInt8

/-- The fill byte. A zero right behind the percent sign is the flag, even where it stands for a
width. -/
def fill (spelling : Spelling) : UInt8 :=
  if spelling.flag ∨ spelling.width = some 0 then '0'.toUInt8 else ' '.toUInt8

def columns (spelling : Spelling) : Nat :=
  spelling.width.elim 0 Fin.val

def directive (spelling : Spelling) : Directive where
  specifier := .ofByte spelling.last
  length := spelling.length
  padding := { width := spelling.columns, fill := spelling.fill }
  precision := (spelling.places.bind Directive.digit?).getD 0

theorem fill_eq_or (spelling : Spelling) :
    spelling.fill = ' '.toUInt8 ∨ spelling.fill = '0'.toUInt8 := by
  unfold fill
  split
  · exact .inr rfl
  · exact .inl rfl

theorem columns_le (spelling : Spelling) : spelling.columns ≤ 9 := by
  unfold columns
  cases spelling.width with
  | none => simp
  | some digit => exact Nat.le_of_lt_succ digit.isLt

theorem precision_le (spelling : Spelling) : spelling.directive.precision ≤ 9 := by
  rw [directive]
  cases found : spelling.places.bind Directive.digit? with
  | none => simp
  | some value =>
    obtain ⟨place, _, digit⟩ := Option.bind_eq_some_iff.mp found
    exact Nat.le_of_lt_succ (Directive.digit?_lt digit)

private theorem afterPoint_ne_nil (spelling : Spelling) : spelling.afterPoint ≠ [] := by
  simp [afterPoint]

private theorem afterWidth_ne_nil (spelling : Spelling) : spelling.afterWidth ≠ [] := by
  simp [afterWidth, afterPoint_ne_nil]

private theorem afterFlag_ne_nil (spelling : Spelling) : spelling.afterFlag ≠ [] := by
  simp [afterFlag, afterWidth_ne_nil]

/-- A greedy spelling has no zero in the place of the flag. -/
private theorem Greedy.width_ne_zero {spelling : Spelling} (greedy : spelling.Greedy)
    (plain : spelling.flag = false) : spelling.width ≠ some 0 := by
  intro zero
  apply greedy.flag plain
  simp [afterFlag, zero, widthBytes, digitByte]

/-- The fill byte of a greedy spelling is chosen by its flag alone. -/
theorem Greedy.fill_eq {spelling : Spelling} (greedy : spelling.Greedy) :
    spelling.fill = if spelling.flag then '0'.toUInt8 else ' '.toUInt8 := by
  cases flag : spelling.flag with
  | true => simp [fill, flag]
  | false => simp [fill, flag, greedy.width_ne_zero flag]

end Spelling

namespace Directive

theorem read?_eq_some_iff_stages {bytes rest : List UInt8} {directive : Directive} :
    read? bytes = some (directive, rest) ↔
      ∃ fill width precision length byte afterFill afterWidth afterPrecision,
        readFill bytes = (fill, afterFill) ∧ readWidth afterFill = (width, afterWidth) ∧
        readPrecision? afterWidth = some (precision, afterPrecision) ∧
        readLength afterPrecision = (length, byte :: rest) ∧
        directive =
          { specifier := .ofByte byte, length, padding := { width, fill }, precision } := by
  constructor
  · intro read
    simp only [read?] at read
    split at read
    · cases read
    · next precision afterPrecision found =>
      split at read
      · cases read
      · next byte tail remaining =>
        cases read
        exact ⟨_, _, precision, _, byte, _, _, afterPrecision, rfl, rfl, found,
          Prod.ext rfl remaining, rfl⟩
  · rintro ⟨fill, width, precision, length, byte, afterFill, afterWidth, afterPrecision,
      filled, widened, placed, sized, rfl⟩
    simp only [read?, filled, widened, placed, sized]

/-- A directive is read exactly where a greedy spelling of it stands, whatever follows. -/
theorem read?_eq_some_iff {bytes rest : List UInt8} {directive : Directive} :
    read? bytes = some (directive, rest) ↔
      ∃ spelling : Spelling, spelling.Greedy ∧ directive = spelling.directive ∧
        bytes = spelling.body ++ rest := by
  rw [read?_eq_some_iff_stages]
  constructor
  · rintro ⟨fill, width, precision, length, byte, afterFill, afterWidth, afterPrecision,
      filled, widened, placed, sized, rfl⟩
    obtain ⟨flag, rfl, rfl, flagStop⟩ := readFill_eq_iff.mp filled
    obtain ⟨digit, rfl, rfl, widthStop⟩ := readWidth_eq_iff.mp widened
    obtain ⟨places, rfl, rfl, placesStop⟩ := readPrecision?_eq_some_iff.mp placed
    obtain ⟨rfl, lengthStop⟩ := readLength_eq_iff.mp sized
    -- What follows the specifier is behind a byte, so it never decides where a part stops.
    have greedy : ({ flag, width := digit, places, length, last := byte } : Spelling).Greedy := by
      refine ⟨?_, ?_, ?_, ?_⟩
      · simpa [Spelling.afterFlag, Spelling.afterWidth, Spelling.afterPoint] using flagStop
      · simpa [Spelling.afterWidth, Spelling.afterPoint] using widthStop
      · simpa [Spelling.afterPoint] using placesStop
      · simpa using lengthStop
    refine ⟨_, greedy, ?_, ?_⟩
    · simp [Spelling.directive, greedy.fill_eq, Spelling.columns]
    · simp [Spelling.body, Spelling.afterFlag, Spelling.afterWidth, Spelling.afterPoint]
  · rintro ⟨spelling, greedy, rfl, rfl⟩
    refine ⟨_, _, _, spelling.length, spelling.last, spelling.afterFlag ++ rest,
      spelling.afterWidth ++ rest, spelling.afterPoint ++ rest,
      readFill_eq_iff.mpr ⟨spelling.flag, rfl, by simp [Spelling.body], ?_⟩,
      readWidth_eq_iff.mpr ⟨spelling.width, rfl, by simp [Spelling.afterFlag], ?_⟩,
      readPrecision?_eq_some_iff.mpr ⟨spelling.places, rfl, by simp [Spelling.afterWidth], ?_⟩,
      readLength_eq_iff.mpr ⟨by simp [Spelling.afterPoint], ?_⟩, ?_⟩
    · rw [List.head?_append_of_ne_nil _ spelling.afterFlag_ne_nil]
      exact greedy.flag
    · rw [List.head?_append_of_ne_nil _ spelling.afterWidth_ne_nil]
      exact greedy.width
    · rw [List.head?_append_of_ne_nil _ spelling.afterPoint_ne_nil]
      exact greedy.places
    · simpa using greedy.length
    · simp [Spelling.directive, greedy.fill_eq, Spelling.columns]

end Directive

namespace Spelling

theorem digitByte_ne_flag : ∀ digit : Fin 10, digit ≠ 0 → digitByte digit ≠ '0'.toUInt8 := by
  decide

/-- A conversion's letter stands for no other part, so only a zero width can pose as the flag. -/
theorem greedy_of_letter {spelling : Spelling} {conversion : Conversion}
    (letter : spelling.last = conversion.letter)
    (settled : spelling.flag = false → spelling.width ≠ some 0) : spelling.Greedy := by
  have notLength : spelling.last ≠ 'l'.toUInt8 := by rw [letter]; cases conversion <;> decide
  have notPoint : spelling.afterPoint.head? ≠ some '.'.toUInt8 := by
    cases length : spelling.length with
    | plain => simp [afterPoint, length, Length.letters, letter]; cases conversion <;> decide
    | long => simp [afterPoint, length, Length.letters]; decide
    | longLong => simp [afterPoint, length, Length.letters]; decide
  have notDigit : spelling.afterWidth.head?.bind Directive.digit? = none := by
    cases places : spelling.places with
    | some byte => simp [afterWidth, places, pointBytes]; decide
    | none =>
      cases length : spelling.length with
      | plain =>
        simp [afterWidth, afterPoint, places, pointBytes, length, Length.letters, letter]
        cases conversion <;> decide
      | long => simp [afterWidth, afterPoint, places, pointBytes, length, Length.letters]; decide
      | longLong =>
        simp [afterWidth, afterPoint, places, pointBytes, length, Length.letters]; decide
  refine ⟨?_, fun _ => notDigit, fun _ => notPoint, fun _ => notLength⟩
  intro plain zero
  cases width : spelling.width with
  | some digit =>
    have nonzero : digit ≠ 0 := fun same => settled plain (by rw [width, same])
    simp only [afterFlag, width, widthBytes, List.cons_append, List.head?_cons,
      Option.some.injEq] at zero
    exact digitByte_ne_flag digit nonzero zero
  | none =>
    rw [afterFlag, width, widthBytes, List.nil_append] at zero
    rw [zero] at notDigit
    exact absurd notDigit (by decide)

/-- The same bytes with a leading zero taken as the flag. -/
def settle (spelling : Spelling) : Spelling :=
  if spelling.flag = false ∧ spelling.width = some 0 then
    { spelling with flag := true, width := none }
  else spelling

@[simp] theorem last_settle (spelling : Spelling) : spelling.settle.last = spelling.last := by
  unfold settle
  split <;> rfl

private theorem settle_settled (spelling : Spelling) (plain : spelling.settle.flag = false) :
    spelling.settle.width ≠ some 0 := by
  by_cases zero : spelling.flag = false ∧ spelling.width = some 0
  · simp [settle, zero] at plain
  · rw [settle, if_neg zero] at plain ⊢
    exact fun same => zero ⟨plain, same⟩

@[simp] theorem body_settle (spelling : Spelling) : spelling.settle.body = spelling.body := by
  unfold settle
  split
  · next zero =>
    simp [body, afterFlag, afterWidth, afterPoint, zero, flagBytes, widthBytes, digitByte]
  · rfl

@[simp] theorem directive_settle (spelling : Spelling) :
    spelling.settle.directive = spelling.directive := by
  unfold settle
  split
  · next zero => simp [directive, fill, columns, zero]
  · rfl

/-- A greedy spelling is read as the directive it denotes, whatever follows. -/
theorem Greedy.read?_bytes {spelling : Spelling} (greedy : spelling.Greedy) (rest : List UInt8) :
    Token.read? (spelling.bytes ++ rest) = some (.directive spelling.directive, rest) := by
  have read : Directive.read? (spelling.body ++ rest) = some (spelling.directive, rest) :=
    Directive.read?_eq_some_iff.mpr ⟨spelling, greedy, rfl, rfl⟩
  rw [bytes, List.cons_append, Token.read?, if_neg (by decide), read, Option.map_some]

private theorem read?_bytes_of_letter {spelling : Spelling} {conversion : Conversion}
    (letter : spelling.last = conversion.letter) (rest : List UInt8) :
    Token.read? (spelling.bytes ++ rest) = some (.directive spelling.directive, rest) := by
  have greedy : spelling.settle.Greedy :=
    greedy_of_letter (spelling.last_settle.trans letter) spelling.settle_settled
  rw [bytes, ← spelling.body_settle, ← spelling.directive_settle]
  exact greedy.read?_bytes rest

theorem directive_specifier {spelling : Spelling} {conversion : Conversion}
    (letter : spelling.last = conversion.letter) :
    spelling.directive.specifier = .convert conversion := by
  rw [directive, letter]
  exact Specifier.ofByte_letter conversion

/-- The only byte of a spelling that can be zero, besides the last, is the one behind the point. -/
theorem zero_notMem_bytes {spelling : Spelling} (last : spelling.last ≠ 0)
    (clean : spelling.places ≠ some 0) : 0 ∉ spelling.bytes := by
  have flagClean : 0 ∉ flagBytes spelling.flag := by cases spelling.flag <;> decide
  have widthClean : 0 ∉ widthBytes spelling.width := by
    cases spelling.width with
    | none => simp [widthBytes]
    | some digit => simpa [widthBytes] using (digitByte_ne_zero digit).symm
  have pointClean : 0 ∉ pointBytes spelling.places := by
    cases places : spelling.places with
    | none => simp [pointBytes]
    | some place =>
      have nonzero : 0 ≠ place := fun zero => clean (by rw [places, ← zero])
      simpa [pointBytes, nonzero] using show (0 : UInt8) ≠ '.'.toUInt8 by decide
  have lengthClean : 0 ∉ spelling.length.letters := by cases spelling.length <;> decide
  simp only [bytes, body, afterFlag, afterWidth, afterPoint, List.mem_cons, List.mem_append,
    List.not_mem_nil, or_false, not_or]
  exact ⟨by decide, flagClean, widthClean, pointClean, lengthClean, last.symm⟩

/-- A format that is one directive has one token. -/
theorem tokens_bytes {spelling : Spelling} {conversion : Conversion}
    (letter : spelling.last = conversion.letter) (clean : spelling.places ≠ some 0) :
    tokens spelling.bytes = [.directive spelling.directive] := by
  have last : spelling.last ≠ 0 := by rw [letter]; cases conversion <;> decide
  have token := read?_bytes_of_letter letter []
  rw [List.append_nil] at token
  have whole : untilNul spelling.bytes = spelling.bytes :=
    untilNul_of_notMem (zero_notMem_bytes last clean)
  rw [tokens, whole, Token.scan_of_read?_eq_some token, Token.scan_nil]

end Spelling

end ByteFormat
