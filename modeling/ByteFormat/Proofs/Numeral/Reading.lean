import ByteFormat.Proofs.Numeral.Layout
import Mathlib.Data.List.TakeWhile

/-! # Reading numbers back

A number is read from an optional sign and digits of a radix; no digits at all count as zero. A
field reads back, behind its padding, as the number it was written for, also when the padding is
made of zeros and cannot be told from leading digits (`Radix.integer?_dropWhile_padded`). Without
zeros in front, a number is written in one way only (`Radix.isNumeral_iff`).
-/

namespace ByteFormat.Radix

/-- The value of a digit of the radix: its place among the symbols. -/
def digitValue? (radix : Radix) (byte : UInt8) : Option Nat :=
  (symbols.take radix.base.toNat).idxOf? byte

/-- The number with the given digits. -/
def natural? (radix : Radix) (bytes : List UInt8) : Option Nat :=
  bytes.foldlM (fun total byte =>
    (radix.digitValue? byte).map fun digit => total * radix.base.toNat + digit) 0

def integer? (radix : Radix) (bytes : List UInt8) : Option Int :=
  if bytes.head? = some '-'.toUInt8 then
    (radix.natural? bytes.tail).map fun value : Nat => -(value : Int)
  else (radix.natural? bytes).map fun value : Nat => (value : Int)

private theorem digitValue?_symbol (radix : Radix) {digit : Nat}
    (small : digit < radix.base.toNat) :
    radix.digitValue? (symbol digit) = some digit := by
  have listed (digits : Fin radix.base.toNat) :
      radix.digitValue? (symbol digits) = some digits.val := by
    cases radix <;> revert digits <;> decide
  exact listed ⟨digit, small⟩

private theorem natural?_append_singleton (radix : Radix) (bytes : List UInt8) (byte : UInt8) :
    radix.natural? (bytes ++ [byte]) =
      (radix.natural? bytes).bind fun total =>
        (radix.digitValue? byte).map fun digit => total * radix.base.toNat + digit := by
  simp [natural?, List.foldlM_append]

theorem natural?_numeral (radix : Radix) (value : Nat) :
    radix.natural? (radix.numeral value) = some value := by
  induction value using Nat.strong_induction_on with
  | _ value ih =>
    have base := radix.one_lt_base
    have digit := radix.digitValue?_symbol (Nat.mod_lt value (by omega))
    have split := Nat.div_add_mod value radix.base.toNat
    by_cases last : value / radix.base.toNat = 0
    · rw [last] at split
      rw [numeral_of_div_eq_zero last, ← List.nil_append [_], natural?_append_singleton, digit]
      simpa [natural?] using split
    · have positive : 0 < value := Nat.pos_of_ne_zero fun zero => last (by simp [zero])
      rw [numeral_of_div_ne_zero last, natural?_append_singleton, digit,
        ih _ (Nat.div_lt_self positive base)]
      simpa [Nat.mul_comm] using split

theorem numeral_injective (radix : Radix) : Function.Injective radix.numeral := by
  intro first second same
  have reads := congrArg radix.natural? same
  rwa [natural?_numeral, natural?_numeral, Option.some.injEq] at reads

private theorem natural?_dropWhile_zero (radix : Radix) (bytes : List UInt8) :
    radix.natural? (bytes.dropWhile (· == '0'.toUInt8)) = radix.natural? bytes := by
  induction bytes with
  | nil => rfl
  | cons byte rest ih =>
    by_cases zero : byte = '0'.toUInt8
    · have value : radix.digitValue? '0'.toUInt8 = some 0 := by cases radix <;> decide
      rw [List.dropWhile_cons_of_pos (by simp [zero]), ih]
      simp [natural?, zero, value]
    · rw [List.dropWhile_cons_of_neg (by simp [zero])]

theorem natural?_replicate_zero (radix : Radix) (count : Nat) (bytes : List UInt8) :
    radix.natural? (List.replicate count '0'.toUInt8 ++ bytes) = radix.natural? bytes := by
  have stripped : (List.replicate count '0'.toUInt8 ++ bytes).dropWhile (· == '0'.toUInt8) =
      bytes.dropWhile (· == '0'.toUInt8) :=
    List.dropWhile_append_of_pos fun byte member => by simp [List.eq_of_mem_replicate member]
  rw [← natural?_dropWhile_zero, stripped, natural?_dropWhile_zero]

theorem sign_notMem_numeral (radix : Radix) (value : Nat) :
    '-'.toUInt8 ∉ radix.numeral value :=
  notMem_numeral (by decide) radix value

private theorem space_notMem_numeral (radix : Radix) (value : Nat) :
    ' '.toUInt8 ∉ radix.numeral value :=
  notMem_numeral (by decide) radix value

theorem integer?_of_sign_notMem {radix : Radix} {bytes : List UInt8}
    (unsigned : '-'.toUInt8 ∉ bytes) :
    radix.integer? bytes = (radix.natural? bytes).map fun value : Nat => (value : Int) := by
  rw [integer?, if_neg]
  intro first
  exact unsigned (List.mem_of_mem_head? first)

/-- The bytes of an integer: its sign and its digits. -/
def signed (radix : Radix) (value : Int) : List UInt8 :=
  signBytes (value < 0) ++ radix.numeral value.natAbs

/-- The sign is written exactly for negative numbers. -/
theorem sign_mem_signed_iff (radix : Radix) (value : Int) :
    '-'.toUInt8 ∈ radix.signed value ↔ value < 0 := by
  by_cases negative : value < 0
  · simp [signed, signBytes, negative]
  · simp [signed, signBytes, negative, sign_notMem_numeral]

/-- Behind spaces or zeros, an integer reads back as itself. -/
theorem integer?_dropWhile_padded (radix : Radix) (value : Int) (count : Nat) {fill : UInt8}
    (padding : fill = ' '.toUInt8 ∨ fill = '0'.toUInt8) :
    radix.integer? ((List.replicate count fill ++ radix.signed value).dropWhile (· == fill)) =
      some value := by
  have stripped : (List.replicate count fill ++ radix.signed value).dropWhile (· == fill) =
      (radix.signed value).dropWhile (· == fill) :=
    List.dropWhile_append_of_pos fun byte member => by simp [List.eq_of_mem_replicate member]
  rw [stripped]
  by_cases negative : value < 0
  · have sign : '-'.toUInt8 ≠ fill := by rcases padding with rfl | rfl <;> decide
    have kept : (radix.signed value).dropWhile (· == fill) =
        '-'.toUInt8 :: radix.numeral value.natAbs := by
      simp [signed, signBytes, negative, sign]
    rw [kept, integer?, List.head?_cons, if_pos rfl, List.tail_cons, natural?_numeral]
    simp only [Option.map_some, Option.some.injEq]
    omega
  · have digits : radix.signed value = radix.numeral value.natAbs := by
      simp [signed, signBytes, negative]
    have unsigned : '-'.toUInt8 ∉ (radix.numeral value.natAbs).dropWhile (· == fill) :=
      fun member => radix.sign_notMem_numeral _ ((List.dropWhile_sublist _).mem member)
    have read : radix.natural? ((radix.numeral value.natAbs).dropWhile (· == fill)) =
        some value.natAbs := by
      rcases padding with rfl | rfl
      · have kept : (radix.numeral value.natAbs).dropWhile (· == ' '.toUInt8) =
            radix.numeral value.natAbs := by
          rw [List.dropWhile_eq_self_iff]
          intro nonempty space
          rw [beq_iff_eq] at space
          exact radix.space_notMem_numeral _ (space ▸ List.getElem_mem nonempty)
        rw [kept, natural?_numeral]
      · rw [natural?_dropWhile_zero, natural?_numeral]
    rw [digits, integer?_of_sign_notMem unsigned, read]
    simp only [Option.map_some, Option.some.injEq]
    omega

private theorem eq_symbol_of_digitValue? {radix : Radix} {byte : UInt8} {digit : Nat}
    (value : radix.digitValue? byte = some digit) :
    digit < radix.base.toNat ∧ byte = symbol digit := by
  obtain ⟨bound, same, _⟩ := List.findIdx?_eq_some_iff_getElem.mp value
  rw [List.length_take] at bound
  rw [beq_iff_eq, List.getElem_take] at same
  refine ⟨by omega, ?_⟩
  rw [symbol, List.getD_eq_getElem?_getD, List.getElem?_eq_getElem (by omega), Option.getD_some,
    same]

/-- Digits that read as a number and begin with a zero only if they are a single zero. -/
structure IsNumeral (radix : Radix) (digits : List UInt8) (value : Nat) : Prop where
  reads : radix.natural? digits = some value
  nonempty : digits ≠ []
  lead : digits.head? = some '0'.toUInt8 → digits = ['0'.toUInt8]

private theorem symbol_eq_zero_iff : ∀ digit : Fin 16, symbol digit = '0'.toUInt8 ↔ digit = 0 := by
  decide

private theorem eq_zero_of_head_numeral {radix : Radix} {value : Nat}
    (lead : (radix.numeral value).head? = some '0'.toUInt8) : value = 0 := by
  by_contra positive
  have nonempty : Nat.digits radix.base.toNat value ≠ [] :=
    Nat.digits_ne_nil_iff_ne_zero.mpr positive
  rw [numeral, if_neg positive, List.head?_map, List.head?_reverse,
    List.getLast?_eq_some_getLast nonempty, Option.map_some, Option.some.injEq] at lead
  have small := Nat.digits_lt_base radix.one_lt_base (List.getLast_mem nonempty)
  have zero := (symbol_eq_zero_iff ⟨_, small.trans_le radix.base_le⟩).mp lead
  exact Nat.getLast_digit_ne_zero _ positive (congrArg Fin.val zero)

theorem numeral_ne_nil (radix : Radix) (value : Nat) : radix.numeral value ≠ [] := by
  have length := radix.length_numeral value
  intro empty
  rw [empty, List.length_nil] at length
  omega

theorem isNumeral_numeral (radix : Radix) (value : Nat) :
    radix.IsNumeral (radix.numeral value) value := by
  refine ⟨radix.natural?_numeral value, radix.numeral_ne_nil value, ?_⟩
  intro lead
  rw [eq_zero_of_head_numeral lead]
  rfl

/-- A number has one numeral: digits that read as the number and have no zero in front are it. -/
theorem isNumeral_iff {radix : Radix} {digits : List UInt8} {value : Nat} :
    radix.IsNumeral digits value ↔ digits = radix.numeral value := by
  constructor
  · intro canonical
    -- From the last digit to the first: what stands in front of it is the numeral of the quotient.
    induction digits using List.reverseRecOn generalizing value with
    | nil => exact absurd rfl canonical.nonempty
    | append_singleton front last ih =>
      have read := canonical.reads
      rw [natural?_append_singleton, Option.bind_eq_some_iff] at read
      obtain ⟨total, before, read⟩ := read
      obtain ⟨digit, found, rfl⟩ := Option.map_eq_some_iff.mp read
      obtain ⟨small, rfl⟩ := eq_symbol_of_digitValue? found
      have quotient : (total * radix.base.toNat + digit) / radix.base.toNat = total := by
        rw [Nat.mul_comm, Nat.mul_add_div (by omega), Nat.div_eq_of_lt small, Nat.add_zero]
      have remainder : (total * radix.base.toNat + digit) % radix.base.toNat = digit := by
        rw [Nat.mul_comm, Nat.mul_add_mod, Nat.mod_eq_of_lt small]
      by_cases empty : front = []
      · subst empty
        cases before
        rw [numeral_of_div_eq_zero quotient, remainder, List.nil_append]
      · have lead : front.head? ≠ some '0'.toUInt8 := by
          intro zero
          have single := canonical.lead (by rw [List.head?_append, zero]; rfl)
          have length := congrArg List.length single
          rw [List.length_append, List.length_singleton, List.length_singleton] at length
          exact empty (List.length_eq_zero_iff.mp (by omega))
        have same := ih ⟨before, empty, fun zero => absurd zero lead⟩
        have positive : total ≠ 0 := by
          rintro rfl
          exact lead (by rw [same]; rfl)
        rw [numeral_of_div_ne_zero (by rwa [quotient]), quotient, remainder, ← same]
  · rintro rfl
    exact radix.isNumeral_numeral value

end ByteFormat.Radix

namespace ByteFormat

/-- The field of an integer given by its value. -/
theorem Magnitude.field_eq_signed {magnitude : Magnitude} {negative : Bool} {value : Int}
    (digits : magnitude.toNat = value.natAbs) (sign : negative = decide (value < 0))
    (radix : Radix) (padding : Padding) :
    magnitude.field radix negative padding =
      List.replicate (min padding.width Scratch.capacity - (radix.signed value).length)
        padding.fill ++ radix.signed value := by
  rw [field_eq, digits, sign]
  rfl

end ByteFormat
