import ByteFormat.Proofs.Binary64.Arithmetic
import ByteFormat.Proofs.Print.Calls
import ByteFormat.Proofs.Print.Integers

/-! # Printed addresses

An address directive takes an argument of any kind and shows the word that stands for it: a marker
and all sixteen hexadecimal digits. The word is the number of the argument reduced to 64 bits, so it
is fetched without loss, and it has no more digits than the field has columns. What else the
directive asks for changes nothing (`addresses_print_in_full`).
-/

namespace ByteFormat

namespace Binary64

/-- A double without its places, brought into the range of a signed word. What is no number counts
as zero. -/
def wordNumber (double : Binary64) : ℤ :=
  match double.value? with
  | some value => max (-2 ^ 63) (min (2 ^ 63 - 1) (if value < 0 then ⌈value⌉ else ⌊value⌋))
  | none => if double = .nan then 0 else if double.isNegative then -2 ^ 63 else 2 ^ 63 - 1

private theorem truncate_eq_wordNumber (double : Binary64) :
    double.truncate (-9223372036854775808) 9223372036854775807 = double.wordNumber := by
  cases double with
  | nan => rfl
  | infinite negative => cases negative <;> rfl
  | finite negative significand exponent canonical => exact truncate_eq rfl _ _

end Binary64

namespace Argument

/-- The number that stands for an argument where an address is asked for: that of an integer, the
place of a text, and a double without its places. -/
def addressed : Argument → ℤ
  | .double value => value.wordNumber
  | .text located => located.address.toNat
  | argument => argument.value?.getD 0

private theorem addressed_of_value {argument : Argument} {value : ℤ}
    (integral : argument.value? = some value) : argument.addressed = value := by
  cases argument with
  | double real => cases integral
  | text located => cases integral
  | int | uint | long | ulong | longLong | ulongLong | pointer =>
    exact congrArg (·.getD 0) integral

private theorem toNat_bits (argument : Argument) :
    (argument.bits.toNat : ℤ) = narrow false 64 argument.addressed := by
  cases kind : argument.value? with
  | some value =>
    rw [addressed_of_value kind]
    exact bits_of_value kind
  | none =>
    cases argument with
    | double value =>
      rw [bits, toNat_toUInt64_int64, Binary64.toInt64, Binary64.truncate_eq_wordNumber,
        Int64.toInt_ofInt]
      exact Int.bmod_emod
    | text located =>
      have below := located.address.toNat_lt
      have small : (located.address.toNat : ℤ) < 2 ^ 64 := by omega
      exact (Int.emod_eq_of_lt (Int.natCast_nonneg _) small).symm
    | int | uint | long | ulong | longLong | ulongLong | pointer => cases kind

end Argument

/-- A word as an address: a marker and sixteen hexadecimal digits. -/
def addressBytes (word : ℕ) : List UInt8 :=
  '0'.toUInt8 :: 'x'.toUInt8 ::
    (List.replicate (16 - (Radix.hexadecimal.numeral word).length) '0'.toUInt8 ++
      Radix.hexadecimal.numeral word)

/-- An output shows a number as an address: behind the marker stand sixteen digits, letters in upper
case, that read as the number. -/
structure ShowsAddress (output : List UInt8) (value : ℤ) : Prop where
  marker : output.take 2 = ['0'.toUInt8, 'x'.toUInt8]
  width : (output.drop 2).length = 16
  digits : ∀ byte ∈ output.drop 2, byte ∈ Radix.symbols
  reads : Radix.hexadecimal.integer? (output.drop 2) = some value

theorem ShowsAddress.unique {output : List UInt8} {first second : ℤ}
    (left : ShowsAddress output first) (right : ShowsAddress output second) : first = second :=
  Option.some.inj (left.reads.symm.trans right.reads)

theorem showsAddress_addressBytes {word : ℕ} (small : word < 2 ^ 64) :
    ShowsAddress (addressBytes word) word := by
  -- Sixteen digits are enough for a word, so the zeros fill the field up to its width.
  have size : 2 ^ 64 = Radix.hexadecimal.base.toNat ^ 16 := rfl
  have digits : (Radix.hexadecimal.numeral word).length ≤ max 16 1 :=
    Radix.hexadecimal.length_numeral_le_max (size ▸ small)
  have symbols : ∀ byte ∈ (addressBytes word).drop 2, byte ∈ Radix.symbols := by
    intro byte member
    rcases List.mem_append.mp member with zero | digit
    · rw [List.eq_of_mem_replicate zero]
      decide
    · obtain ⟨value, below, rfl⟩ := Radix.exists_digit_of_mem_numeral digit
      exact Radix.symbol_mem_symbols ⟨value, below⟩
  refine ⟨rfl, ?_, symbols, ?_⟩
  · simp only [addressBytes, List.drop_succ_cons, List.drop_zero, List.length_append,
      List.length_replicate]
    omega
  · have unsigned : '-'.toUInt8 ∉ (addressBytes word).drop 2 :=
      fun sign => absurd (symbols _ sign) (by decide)
    rw [Radix.integer?_of_sign_notMem unsigned]
    simp only [addressBytes, List.drop_succ_cons, List.drop_zero,
      Radix.natural?_replicate_zero, Radix.natural?_numeral, Option.map_some]

/-- The field of an address has all the digits of the pattern, whatever the directive. -/
private theorem Directive.integerField_pointer (directive : Directive) (profile : Profile)
    (argument : Argument) :
    '0'.toUInt8 :: 'x'.toUInt8 :: directive.pointer.integerField profile .pointer argument =
      addressBytes argument.bits.toNat := by
  simp only [integerField, Argument.integer_magnitude, Argument.integer_negative,
    Magnitude.field_eq]
  rfl

/-- An address directive writes the pattern of its argument as an address, on every sink. -/
theorem print_pointer {spelling : Spelling} (letter : spelling.last = Conversion.pointer.letter)
    (clean : spelling.places ≠ some 0) (profile : Profile) (argument : Argument) {σ : Type} [Sink σ]
    (sink : σ) :
    print profile spelling.bytes [argument] sink =
      { sink := Sink.writeEach sink (addressBytes argument.bits.toNat), degradations := [] } := by
  let serving : Serving := { directive := spelling.directive, conversion := .pointer, argument }
  have other : serving.conversion ≠ .text := Conversion.noConfusion
  rw [print_spelling letter clean, ← spelling.directive.integerField_pointer profile]
  exact congrArg (Printed.mk · []) (Serving.write_of_ne_text profile other sink)

theorem printBytes_pointer {spelling : Spelling}
    (letter : spelling.last = Conversion.pointer.letter) (clean : spelling.places ≠ some 0)
    (profile : Profile) (argument : Argument) :
    printBytes profile spelling.bytes [argument] = addressBytes argument.bits.toNat := by
  rw [printBytes, print_pointer letter clean, Collector.toList_writeEach, Collector.toList_empty,
    List.nil_append]

/-- Addresses are printed in full. For every argument and every address directive, the output shows
the number of the argument, reduced to a word: the marker, and sixteen digits that read as it. The
bytes are written one at a time, and nothing is reported. No part of the directive and no build
makes a difference, and two arguments print alike exactly when their words are the same. -/
theorem addresses_print_in_full {spelling : Spelling}
    (letter : spelling.last = Conversion.pointer.letter) (clean : spelling.places ≠ some 0)
    (profile : Profile) (argument : Argument) :
    ShowsAddress (printBytes profile spelling.bytes [argument])
      (narrow false 64 argument.addressed) ∧
    (∀ {σ : Type} [Sink σ] (sink : σ),
      print profile spelling.bytes [argument] sink =
        { sink := Sink.writeEach sink (printBytes profile spelling.bytes [argument])
          degradations := [] }) ∧
    (∀ (other : Spelling) (build : Profile), other.last = Conversion.pointer.letter →
      other.places ≠ some 0 →
      printBytes build other.bytes [argument] = printBytes profile spelling.bytes [argument]) ∧
    ∀ other : Argument,
      printBytes profile spelling.bytes [other] = printBytes profile spelling.bytes [argument] ↔
        narrow false 64 other.addressed = narrow false 64 argument.addressed := by
  have printed := printBytes_pointer letter clean profile
  have shows (argument : Argument) : ShowsAddress (printBytes profile spelling.bytes [argument])
      (narrow false 64 argument.addressed) := by
    rw [printed, ← argument.toNat_bits]
    exact showsAddress_addressBytes argument.bits.toNat_lt
  refine ⟨shows argument, ?_, ?_, ?_⟩
  · intro σ _ sink
    rw [printed, print_pointer letter clean]
  · intro other build otherLetter otherClean
    rw [printed, printBytes_pointer otherLetter otherClean]
  · intro other
    constructor
    · intro same
      have reread := shows other
      rw [same] at reread
      exact reread.unique (shows argument)
    · intro same
      rw [← other.toNat_bits, ← argument.toNat_bits, Int.natCast_inj] at same
      rw [printed, printed, same]

/-- `%09.zlp` shows -2 with all its sixteen digits, like `%p` in the other build, and a double below
all words like the least of them. -/
theorem addresses_print_in_full_negative :
    ShowsAddress (printBytes { wide := true } (utf8 "%09.zlp") [.int (-2)]) 18446744073709551614 ∧
    printBytes { wide := false } (utf8 "%p") [.int (-2)] =
      printBytes { wide := true } (utf8 "%09.zlp") [.int (-2)] ∧
    printBytes { wide := true } (utf8 "%09.zlp")
        [.double (.finite true 4503599627370496 20 (by decide))] =
      printBytes { wide := true } (utf8 "%09.zlp") [.longLong Int64.minValue] := by
  have letter : ({ flag := true, width := some 9, places := some 'z'.toUInt8, length := .long
                   last := 'p'.toUInt8 } : Spelling).last = Conversion.pointer.letter := rfl
  have bare : ({ flag := false, width := none, places := none, length := .plain
                 last := 'p'.toUInt8 } : Spelling).last = Conversion.pointer.letter := rfl
  have below : (Argument.double (.finite true 4503599627370496 20 (by decide))).addressed =
      (Argument.longLong Int64.minValue).addressed := by
    have least : (Argument.longLong Int64.minValue).addressed = -9223372036854775808 := rfl
    rw [least]
    norm_num [Argument.addressed, Binary64.wordNumber, Binary64.value?, Binary64.sign]
  obtain ⟨shows, _, alike, _⟩ :=
    addresses_print_in_full letter (by decide) { wide := true } (.int (-2))
  obtain ⟨_, _, _, lossless⟩ :=
    addresses_print_in_full letter (by decide) { wide := true } (.longLong Int64.minValue)
  exact ⟨shows, alike _ { wide := false } bare (by decide),
    (lossless _).mpr (congrArg (narrow false 64) below)⟩

end ByteFormat
