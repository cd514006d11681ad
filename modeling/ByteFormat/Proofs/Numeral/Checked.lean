import ByteFormat.Proofs.Numeral.Reading

/-! # Room in the scratch area

A byte that does not fit into the scratch area is dropped without notice. Here the field is written
once more, with the room checked before each byte, so that writing fails where a byte would be
dropped. It never does: digits, sign and padding find room, whatever the word, the radix and the
requested width are (`Magnitude.field?_eq_some`). Hence every field is laid out exactly, and never
takes more than the area (`Magnitude.field_laid_out`).
-/

namespace ByteFormat

namespace Scratch

/-- Writes a byte in front of the others if a cell is left for it. -/
def push? (scratch : Scratch) (byte : UInt8) : Option Scratch :=
  if 0 < scratch.position then some (scratch.push byte) else none

def pushDigits? (radix : Radix) (magnitude : Magnitude) (scratch : Scratch) (width : Nat) :
    Option (Scratch × Nat) :=
  (scratch.push? (digit (magnitude.remainder radix.base))).bind fun pushed =>
    if (magnitude.quotient radix.base).isZero then some (pushed, width - 1)
    else pushDigits? radix (magnitude.quotient radix.base) pushed (width - 1)
termination_by magnitude.toNat
decreasing_by exact Magnitude.quotient_lt (by assumption)

def pushSign? (negative : Bool) (scratch : Scratch) (width : Nat) : Option (Scratch × Nat) :=
  if negative then (scratch.push? '-'.toUInt8).map (·, width - 1) else some (scratch, width)

def pad? (fill : UInt8) (scratch : Scratch) (width : Nat) : Option Scratch :=
  Nat.repeat (·.bind (push? · fill)) width (some scratch)

private theorem push?_of_lt {scratch : Scratch} (room : scratch.bytes.length < capacity)
    (byte : UInt8) : scratch.push? byte = some (scratch.push byte) := by
  rw [length_bytes] at room
  exact if_pos (by omega)

/-- Digits that fit into what is left of the area pass every check. -/
private theorem pushDigits?_eq_some (radix : Radix) (magnitude : Magnitude) (scratch : Scratch)
    (width : Nat)
    (room : scratch.bytes.length + (radix.numeral magnitude.toNat).length ≤ capacity) :
    pushDigits? radix magnitude scratch width =
      some (pushDigits radix magnitude scratch width) := by
  fun_induction pushDigits radix magnitude scratch width with
  | case1 magnitude scratch width pushed last =>
    have digits := List.length_pos_iff.mpr (radix.numeral_ne_nil magnitude.toNat)
    rw [pushDigits?, push?_of_lt (by omega), Option.bind_some, if_pos last]
  | case2 magnitude scratch width pushed more ih =>
    have quotient : magnitude.toNat / radix.base.toNat ≠ 0 := by
      rwa [Magnitude.isZero_iff, Magnitude.toNat_quotient] at more
    rw [Radix.numeral_of_div_ne_zero quotient, List.length_append, List.length_singleton] at room
    have fits : scratch.bytes.length < capacity := by omega
    rw [pushDigits?, push?_of_lt fits, Option.bind_some, if_neg more]
    apply ih
    rw [Magnitude.toNat_quotient, bytes_push_of_lt fits, List.length_cons]
    omega

private theorem pushSign?_eq_some (negative : Bool) {scratch : Scratch} (width : Nat)
    (room : scratch.bytes.length < capacity) :
    pushSign? negative scratch width = some (pushSign negative scratch width) := by
  cases negative with
  | false => rfl
  | true => rw [pushSign?, if_pos rfl, push?_of_lt room, pushSign, if_pos rfl, Option.map_some]

private theorem pad?_eq_some (fill : UInt8) (scratch : Scratch) (width : Nat)
    (room : scratch.bytes.length + width ≤ capacity) :
    scratch.pad? fill width = some (scratch.pad fill width) := by
  unfold pad?
  induction width with
  | zero => rfl
  | succ width ih =>
    have fits : (scratch.pad fill width).bytes.length < capacity := by
      rw [bytes_pad fill scratch width (by omega), List.length_append, List.length_replicate]
      omega
    rw [Nat.repeat, ih (by omega), Option.bind_some, push?_of_lt fits]
    rfl

end Scratch

namespace Magnitude

/-- The field of an integer if each of its bytes finds room in the area when it is written. -/
def field? (magnitude : Magnitude) (radix : Radix) (negative : Bool) (padding : Padding) :
    Option (List UInt8) := do
  let digits ← Scratch.pushDigits? radix magnitude .empty (min padding.width Scratch.capacity)
  let signed ← Scratch.pushSign? negative digits.1 digits.2
  let padded ← Scratch.pad? padding.fill signed.1 signed.2
  return padded.bytes

theorem field?_eq_some (magnitude : Magnitude) (radix : Radix) (negative : Bool)
    (padding : Padding) :
    magnitude.field? radix negative padding = some (magnitude.field radix negative padding) := by
  have room := magnitude.length_signed_lt radix negative
  have fits : Scratch.empty.bytes.length + (radix.numeral magnitude.toNat).length <
      Scratch.capacity := by
    rw [List.length_append] at room
    rw [Scratch.bytes_empty, List.length_nil]
    omega
  have digits : (Scratch.pushDigits radix magnitude .empty
      (min padding.width Scratch.capacity)).1.bytes.length < Scratch.capacity := by
    rw [(Scratch.pushDigits_eq radix magnitude .empty _ fits.le).1, List.length_append]
    omega
  obtain ⟨written, columns⟩ := magnitude.pushSign_pushDigits radix negative
    (min padding.width Scratch.capacity)
  rw [field?, Scratch.pushDigits?_eq_some radix magnitude .empty _ fits.le, Option.bind_eq_bind,
    Option.bind_some, Scratch.pushSign?_eq_some negative _ digits, Option.bind_eq_bind,
    Option.bind_some, Scratch.pad?_eq_some]
  · rfl
  · rw [written, columns]
    omega

/-- Every field is laid out exactly. It is padding up to the requested width, which is clamped to
the area, then a sign for a negative number, then the only numeral of the number. So its length is
the clamped width or what sign and digits need, and never exceeds the area. No byte of it is
dropped: each finds room when it is written. Words of both sizes that hold the same number have the
same field. -/
theorem field_laid_out (radix : Radix) (negative : Bool) (padding : Padding) :
    (∀ magnitude : Magnitude,
      magnitude.field radix negative padding =
          List.replicate (min padding.width 66 -
              ((radix.numeral magnitude.toNat).length + if negative then 1 else 0)) padding.fill ++
            (if negative then ['-'.toUInt8] else []) ++ radix.numeral magnitude.toNat ∧
        (∀ digits, radix.IsNumeral digits magnitude.toNat ↔
          digits = radix.numeral magnitude.toNat) ∧
        (magnitude.field radix negative padding).length =
          max (min padding.width 66)
            ((radix.numeral magnitude.toNat).length + if negative then 1 else 0) ∧
        (magnitude.field radix negative padding).length ≤ 66 ∧
        magnitude.field? radix negative padding = some (magnitude.field radix negative padding)) ∧
    ∀ value : UInt32,
      (word32 value).field radix negative padding =
        (word64 value.toUInt64).field radix negative padding := by
  constructor
  · intro magnitude
    have room := magnitude.length_signed_lt radix negative
    have length := magnitude.length_field radix negative padding
    have columns : (signBytes negative ++ radix.numeral magnitude.toNat).length =
        (radix.numeral magnitude.toNat).length + if negative then 1 else 0 := by
      cases negative <;> simp [signBytes]
    refine ⟨?_, fun digits => Radix.isNumeral_iff, length, ?_,
      magnitude.field?_eq_some radix negative padding⟩
    · rw [field_eq, columns, List.append_assoc]
      rfl
    · rw [columns] at room
      simp only [Scratch.capacity] at room length
      omega
  · intro value
    have same : (word64 value.toUInt64).toNat = (word32 value).toNat := UInt32.toNat_toUInt64 value
    rw [field_eq, field_eq, same]

/-- The longest number there is leaves one column of the area for padding. -/
example :
    (word64 18446744073709551615).field .binary true { width := 255, fill := ' '.toUInt8 } =
      ' '.toUInt8 :: '-'.toUInt8 :: List.replicate 64 '1'.toUInt8 := by
  decide +kernel

end Magnitude

end ByteFormat
