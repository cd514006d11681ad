import ByteFormat.Bytes
import ByteFormat.Proofs.FixedPoint.Layout

/-! # Accuracy of fixed-point fields

A fixed-point text is read as the number in front of the point and the digits behind it, each of
which counts a tenth of the one before; sign and padding are passed over. The number read from the
field of a double that fits into a word differs from its magnitude by at most one unit of the last
place (`field_within_last_place`), although four of the steps that lead to the digits are rounded.
-/

namespace ByteFormat.FixedPoint

open Binary64

/-- The magnitude that a text shows: digits, a point and digits behind the point, with or without a
sign in front. -/
def magnitude? (bytes : List UInt8) : Option ℚ :=
  let unsigned := bytes.dropWhile (· == '-'.toUInt8)
  match unsigned.dropWhile (· != '.'.toUInt8) with
  | [] => none
  | _ :: places =>
      (Radix.decimal.natural? (unsigned.takeWhile (· != '.'.toUInt8))).bind fun whole : ℕ =>
        (Radix.decimal.natural? places).map fun part : ℕ =>
          (whole : ℚ) + (part : ℚ) / 10 ^ places.length

private theorem dropWhile_sign (negative : Bool) (value : ℕ) (rest : List UInt8) :
    (signBytes negative ++ Radix.decimal.numeral value ++ rest).dropWhile (· == '-'.toUInt8) =
      Radix.decimal.numeral value ++ rest := by
  have unsigned := Radix.decimal.sign_notMem_numeral value
  obtain ⟨first, others, digits⟩ :=
    List.exists_cons_of_ne_nil (Radix.decimal.numeral_ne_nil value)
  rw [digits] at unsigned ⊢
  have other : first ≠ '-'.toUInt8 := fun same => unsigned (by simp [same])
  cases negative <;> simp [signBytes, other]

/-- A sign, a numeral, a point and digits show the number that they write. -/
private theorem magnitude?_eq {places : List UInt8} {part : ℕ}
    (reads : Radix.decimal.natural? places = some part) (negative : Bool) (whole : ℕ) :
    magnitude? (signBytes negative ++ Radix.decimal.numeral whole ++ '.'.toUInt8 :: places) =
      some ((whole : ℚ) + (part : ℚ) / 10 ^ places.length) := by
  have digits : ∀ byte ∈ Radix.decimal.numeral whole, (byte != '.'.toUInt8) = true := by
    intro byte member
    exact bne_iff_ne.mpr fun point =>
      Radix.notMem_numeral (by decide) .decimal whole (point ▸ member)
  have front : (Radix.decimal.numeral whole ++ '.'.toUInt8 :: places).takeWhile
      (· != '.'.toUInt8) = Radix.decimal.numeral whole := by
    rw [List.takeWhile_append_of_pos digits, List.takeWhile_cons_of_neg (by simp), List.append_nil]
  have back : (Radix.decimal.numeral whole ++ '.'.toUInt8 :: places).dropWhile
      (· != '.'.toUInt8) = '.'.toUInt8 :: places := by
    rw [List.dropWhile_append_of_pos digits, List.dropWhile_cons_of_neg (by simp)]
  simp only [magnitude?, dropWhile_sign, front, back, Radix.natural?_numeral, reads,
    Option.bind_some, Option.map_some]

/-- What is written of a double that fits into a word is what its magnitude is cut to. -/
theorem magnitude?_field {value : Binary64} {number : ℚ} (finite : value.value? = some number)
    (below : |number| < 2 ^ 64) {precision : ℕ} (short : precision ≤ 9) (fill : UInt8) :
    ∃ cut : Cut |number| precision,
      magnitude? (field value precision { width := 0, fill }) = some cut.written := by
  obtain ⟨cut, front, behind⟩ := exists_cut finite short below
  have small := cut.fraction_lt
  refine ⟨cut, ?_⟩
  rw [field_of_width_zero, magnitude?_eq (natural?_fractionField value precision),
    length_fractionField short (behind ▸ small), front, behind, Cut.written]
  by_cases none : precision = 0
  · have zero : cut.fraction = 0 := by simpa [none] using small
    simp [zero]
  · rw [max_eq_left (by omega), lastPlace, mul_one_div]

/-- Fixed-point output is right to one unit of the last place. For every number that fits into a
word, with up to nine places and any padding, the number read from the field behind its padding
differs from the magnitude by at most one unit of the last place. -/
theorem field_within_last_place {value : Binary64} {number : ℚ}
    (finite : value.value? = some number) (below : |number| < 2 ^ 64) {precision : ℕ}
    (short : precision ≤ 9) (padding : Padding) :
    ∃ (count : ℕ) (written : ℚ),
      field value precision padding = List.replicate count padding.fill ++
        field value precision { width := 0, fill := padding.fill } ∧
      magnitude? (field value precision { width := 0, fill := padding.fill }) = some written ∧
      |written - (|number|)| ≤ 1 / 10 ^ precision := by
  obtain ⟨cut, reads⟩ := magnitude?_field finite below short padding.fill
  exact ⟨_, cut.written, field_eq_padded value precision padding, reads, cut.abs_written_sub_le⟩

/-- The double nearest to two and five thousandths lies below a tie, and is written as two. -/
theorem field_within_last_place_tie :
    field (.finite false 4514858626438922 (-51) (by decide)) 2 { width := 0, fill := ' '.toUInt8 } =
      utf8 "2.00" ∧
    magnitude? (utf8 "2.00") = some 2 ∧
    |2 - (|sign false * ((4514858626438922 : ℕ) * 2 ^ (-51 : ℤ))|)| ≤ 1 / 10 ^ 2 := by
  have text : field (.finite false 4514858626438922 (-51) (by decide)) 2
      { width := 0, fill := ' '.toUInt8 } = utf8 "2.00" := by decide +kernel
  have two : magnitude? (utf8 "2.00") = some 2 := by decide +kernel
  have finite : (Binary64.finite false 4514858626438922 (-51) (by decide)).value? =
      some (sign false * ((4514858626438922 : ℕ) * 2 ^ (-51 : ℤ))) := rfl
  obtain ⟨_, written, _, reads, close⟩ := field_within_last_place finite (by norm_num [sign])
    (by decide : 2 ≤ 9) { width := 0, fill := ' '.toUInt8 }
  rw [text, two, Option.some.injEq] at reads
  rw [← reads] at close
  exact ⟨text, two, close⟩

end ByteFormat.FixedPoint
