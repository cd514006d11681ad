import ByteFormat.Proofs.Format.Spelling
import ByteFormat.Proofs.Numeral.Reading
import ByteFormat.Proofs.Print.Calls

/-! # Printed integers

A format that is one integer directive prints its argument, reduced to the word that the directive
asks for, as padding, sign and digits. The number can be read back from the output, so no two
numbers print alike (`printBytes_integer_faithful`).
-/

namespace ByteFormat

/-- Whether a conversion writes an integer field of the shape that the directive asks for. -/
def Conversion.isInteger : Conversion → Bool
  | .signed | .unsigned | .hex | .binary => true
  | _ => false

/-- An output shows a number in a field: behind the fill bytes the number can be read, a sign is
there exactly for negative numbers, and the field is as wide as asked for or as its digits need. -/
structure Shows (radix : Radix) (fill : UInt8) (columns : Nat) (output : List UInt8) (value : Int) :
    Prop where
  reads : radix.integer? (output.dropWhile (· == fill)) = some value
  sign : '-'.toUInt8 ∈ output ↔ value < 0
  width : output.length = max columns
    (max 1 (Nat.digits radix.base.toNat value.natAbs).length + if value < 0 then 1 else 0)

theorem Shows.unique {radix : Radix} {fill : UInt8} {columns : Nat} {output : List UInt8}
    {first second : Int} (left : Shows radix fill columns output first)
    (right : Shows radix fill columns output second) : first = second :=
  Option.some.inj (left.reads.symm.trans right.reads)

private theorem shows_padded (radix : Radix) {fill : UInt8}
    (padding : fill = ' '.toUInt8 ∨ fill = '0'.toUInt8) (columns : Nat) (value : Int) :
    Shows radix fill columns
      (List.replicate (columns - (radix.signed value).length) fill ++ radix.signed value)
      value := by
  refine ⟨radix.integer?_dropWhile_padded value _ padding, ?_, ?_⟩
  · have other : '-'.toUInt8 ≠ fill := by rcases padding with rfl | rfl <;> decide
    rw [List.mem_append, List.mem_replicate, radix.sign_mem_signed_iff]
    simp [other]
  · have digits := radix.length_numeral value.natAbs
    have sign : (signBytes (value < 0)).length = if value < 0 then 1 else 0 := by
      by_cases negative : value < 0 <;> simp [signBytes, negative]
    rw [List.length_append, List.length_replicate, Radix.signed, List.length_append, sign, digits]
    omega

/-- A format that is one directive writes what the directive writes for its argument. -/
theorem print_spelling {spelling : Spelling} {conversion : Conversion}
    (letter : spelling.last = conversion.letter) (clean : spelling.places ≠ some 0)
    {σ : Type} [Sink σ] (profile : Profile) (argument : Argument) (sink : σ) :
    print profile spelling.bytes [argument] sink =
      { sink := spelling.directive.write profile conversion argument sink
        degradations := [] } := by
  have specifier := Spelling.directive_specifier letter
  rw [print_eq_plan, Spelling.tokens_bytes letter clean]
  simp [plan, specifier, Action.run, Action.degradation?]

/-- An integer directive writes padding, sign and digits of the reduced value. -/
theorem printBytes_integer {spelling : Spelling} {conversion : Conversion}
    (letter : spelling.last = conversion.letter) (integral : conversion.isInteger = true)
    (clean : spelling.places ≠ some 0) {argument : Argument} {value : Int}
    (kind : argument.value? = some value) (profile : Profile) :
    printBytes profile spelling.bytes [argument] =
      List.replicate (spelling.columns - (conversion.radix.signed
          (narrow conversion.isSigned spelling.length.bits value)).length) spelling.fill ++
        conversion.radix.signed (narrow conversion.isSigned spelling.length.bits value) := by
  have written (sink : Collector) : spelling.directive.write profile conversion argument sink =
      spelling.directive.writeInteger profile conversion argument sink := by
    cases conversion with
    | signed | unsigned | hex | binary => rfl
    | char | text | pointer | float => cases integral
  have field := Magnitude.field_eq_signed
    (Argument.magnitude_integer kind profile spelling.length conversion.isSigned)
    (Argument.negative_integer kind profile spelling.length conversion.isSigned)
    conversion.radix { width := spelling.columns, fill := spelling.fill }
  have fits : min spelling.columns Scratch.capacity = spelling.columns :=
    Nat.min_eq_left (spelling.columns_le.trans (by decide))
  rw [printBytes, print_spelling letter clean, written, Directive.writeInteger_eq,
    Collector.toList_writeEach, Collector.toList_empty, List.nil_append]
  exact field.trans (by rw [fits])

/-- Integer output is faithful. Under a format that is one integer directive, an argument of an
integer kind prints as its value reduced to the word of the directive, which is the only number in
range congruent to the value. Hence two such arguments print alike exactly when they are reduced to
the same number. -/
theorem printBytes_integer_faithful {spelling : Spelling} {conversion : Conversion}
    (letter : spelling.last = conversion.letter) (integral : conversion.isInteger = true)
    (clean : spelling.places ≠ some 0) {argument : Argument} {value : Int}
    (kind : argument.value? = some value) (profile : Profile) :
    (∀ candidate, candidate = narrow conversion.isSigned spelling.length.bits value ↔
      candidate ≡ value [ZMOD 2 ^ spelling.length.bits] ∧
        InRange conversion.isSigned spelling.length.bits candidate) ∧
    Shows conversion.radix spelling.fill spelling.columns
      (printBytes profile spelling.bytes [argument])
      (narrow conversion.isSigned spelling.length.bits value) ∧
    ∀ other otherValue, Argument.value? other = some otherValue →
      (printBytes profile spelling.bytes [argument] = printBytes profile spelling.bytes [other] ↔
        narrow conversion.isSigned spelling.length.bits value =
          narrow conversion.isSigned spelling.length.bits otherValue) := by
  have shows {argument : Argument} {value : Int} (kind : argument.value? = some value) :
      Shows conversion.radix spelling.fill spelling.columns
        (printBytes profile spelling.bytes [argument])
        (narrow conversion.isSigned spelling.length.bits value) := by
    rw [printBytes_integer letter integral clean kind]
    exact shows_padded conversion.radix spelling.fill_eq_or spelling.columns _
  refine ⟨fun candidate => eq_narrow_iff spelling.length.bits_pos, shows kind, ?_⟩
  intro other otherValue otherKind
  constructor
  · intro same
    have reread := shows kind
    rw [same] at reread
    exact reread.unique (shows otherKind)
  · intro same
    rw [printBytes_integer letter integral clean kind,
      printBytes_integer letter integral clean otherKind, same]

/-- A value beyond the word wraps around: `%05d` shows 4294967254 as -42, like -42 itself, and
unlike 42. -/
theorem printBytes_integer_faithful_wrapped :
    Shows .decimal '0'.toUInt8 5
      (printBytes { wide := true } ['%'.toUInt8, '0'.toUInt8, '5'.toUInt8, 'd'.toUInt8]
        [.longLong 4294967254]) (-42) ∧
    (printBytes { wide := true } ['%'.toUInt8, '0'.toUInt8, '5'.toUInt8, 'd'.toUInt8]
        [.longLong 4294967254] =
      printBytes { wide := true } ['%'.toUInt8, '0'.toUInt8, '5'.toUInt8, 'd'.toUInt8]
        [.int (-42)]) ∧
    (printBytes { wide := true } ['%'.toUInt8, '0'.toUInt8, '5'.toUInt8, 'd'.toUInt8]
        [.longLong 4294967254] ≠
      printBytes { wide := true } ['%'.toUInt8, '0'.toUInt8, '5'.toUInt8, 'd'.toUInt8]
        [.uint 42]) := by
  have letter : ({ flag := true, width := some 5, places := none, length := .plain
                   last := 'd'.toUInt8 } : Spelling).last = Conversion.signed.letter := rfl
  have kind : (Argument.longLong 4294967254).value? = some 4294967254 := by decide
  obtain ⟨_, shows, alike⟩ :=
    printBytes_integer_faithful letter rfl (by decide) kind { wide := true }
  exact ⟨shows, (alike (.int (-42)) (-42) (by decide)).mpr (by decide),
    fun same => absurd ((alike (.uint 42) 42 (by decide)).mp same) (by decide)⟩

end ByteFormat
