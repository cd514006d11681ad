/-! # Byte strings

Formats, text arguments and output are lists of bytes. A byte string that is read as text ends at
its first zero byte or, without one, at the end of the list.
-/

namespace ByteFormat

/-- The bytes before the first zero byte. -/
def untilNul (bytes : List UInt8) : List UInt8 :=
  bytes.takeWhile (· != 0)

def utf8 (text : String) : List UInt8 :=
  text.toUTF8.data.toList

@[simp] theorem utf8_append (first second : String) :
    utf8 (first ++ second) = utf8 first ++ utf8 second := by
  simp [utf8]

theorem utf8_inj {first second : String} : utf8 first = utf8 second ↔ first = second := by
  constructor
  · intro same
    exact String.toByteArray_inj.mp (ByteArray.ext (Array.toList_inj.mp same))
  · rintro rfl
    rfl

private theorem utf8_eq_flatMap (text : String) :
    utf8 text = text.toList.flatMap String.utf8EncodeChar := by
  rw [← String.ofList_toList (s := text)]
  simp only [utf8, String.toUTF8_eq_toByteArray, String.toByteArray_ofList, String.toList_ofList,
    List.utf8Encode, List.toList_data_toByteArray]

/-- A byte below 128 occurs in the encoding of its own character only: longer encodings are made of
bytes from 128 on. -/
private theorem eq_of_mem_utf8EncodeChar {char other : Char} (ascii : char.toNat < 128)
    (member : char.toUInt8 ∈ String.utf8EncodeChar other) : char = other := by
  have code (value : Nat) (same : char.toUInt8 = UInt8.ofNat value) : char.toNat = value % 256 := by
    have byte : char.toUInt8.toNat = char.toNat % 256 := UInt32.toNat_toUInt8 char.val
    rw [same, UInt8.toNat_ofNat'] at byte
    omega
  apply Char.toNat_inj.mp
  change char.toNat = other.val.toNat
  rw [String.utf8EncodeChar.eq_1] at member
  split at member
  · have same := code _ (List.mem_singleton.mp member)
    omega
  · exfalso
    repeat' split at member
    all_goals simp only [List.mem_cons, List.not_mem_nil, or_false] at member
    · rcases member with same | same <;> have large := code _ same <;> omega
    · rcases member with same | same | same <;> have large := code _ same <;> omega
    · rcases member with same | same | same | same <;> have large := code _ same <;> omega

/-- A byte below 128 occurs in the encoding of a text only if its character occurs in the text. -/
theorem mem_of_mem_utf8 {char : Char} (ascii : char.toNat < 128) {text : String}
    (member : char.toUInt8 ∈ utf8 text) : char ∈ text.toList := by
  rw [utf8_eq_flatMap, List.mem_flatMap] at member
  obtain ⟨other, listed, encoded⟩ := member
  exact eq_of_mem_utf8EncodeChar ascii encoded ▸ listed

@[simp] theorem untilNul_nil : untilNul [] = [] := rfl

/-- A zero byte ends the string, whatever follows it. -/
@[simp] theorem untilNul_zero_cons (rest : List UInt8) : untilNul (0 :: rest) = [] := by
  simp [untilNul]

private theorem untilNul_cons {byte : UInt8} (nonzero : byte ≠ 0) (rest : List UInt8) :
    untilNul (byte :: rest) = byte :: untilNul rest := by
  simp [untilNul, nonzero]

/-- No zero byte survives the cut. -/
theorem ne_zero_of_mem_untilNul {bytes : List UInt8} {byte : UInt8}
    (member : byte ∈ untilNul bytes) : byte ≠ 0 := by
  induction bytes with
  | nil => simp at member
  | cons head rest ih =>
    by_cases zero : head = 0
    · subst zero
      simp at member
    · rw [untilNul_cons zero] at member
      rcases List.mem_cons.mp member with same | later
      · exact same ▸ zero
      · exact ih later

theorem untilNul_eq_self {bytes : List UInt8} (clean : ∀ byte ∈ bytes, byte ≠ 0) :
    untilNul bytes = bytes := by
  induction bytes with
  | nil => rfl
  | cons head rest ih =>
    rw [untilNul_cons (clean head (by simp)), ih fun byte member => clean byte (by simp [member])]

theorem untilNul_of_notMem {bytes : List UInt8} (clean : 0 ∉ bytes) : untilNul bytes = bytes :=
  untilNul_eq_self fun _ member zero => clean (zero ▸ member)

/-- What follows a string without zero bytes is cut on its own. -/
theorem untilNul_append {first : List UInt8} (clean : 0 ∉ first) (second : List UInt8) :
    untilNul (first ++ second) = first ++ untilNul second := by
  have kept : ∀ byte ∈ first, (byte != 0) = true := by
    intro byte member
    exact bne_iff_ne.mpr fun zero => clean (zero ▸ member)
  exact List.takeWhile_append_of_pos kept

/-- What stands behind a zero byte is not read. -/
theorem untilNul_append_of_mem {first : List UInt8} (zero : 0 ∈ first) (second : List UInt8) :
    untilNul (first ++ second) = untilNul first := by
  obtain ⟨before, after, rfl, clean⟩ := List.eq_append_cons_of_mem zero
  rw [List.append_assoc, List.cons_append, untilNul_append clean, untilNul_append clean,
    untilNul_zero_cons, untilNul_zero_cons]

end ByteFormat
