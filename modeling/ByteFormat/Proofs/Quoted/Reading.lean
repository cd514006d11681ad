import ByteFormat.Quoted
import Mathlib.Tactic.SplitIfs

/-! # Reading quoted characters back

A quoted character stands on one line, whatever the character is (`newline_notMem_char`), and it can
be read back: a letter behind a backslash names its character, hexadecimal digits in braces give its
code, and everything else is the character itself. So no two characters are quoted alike
(`char_injective`).
-/

namespace ByteFormat.Quoted

def digitValue (digit : Char) : Nat :=
  ((List.range 16).map Nat.digitChar).idxOf digit

def hexadecimal (digits : List Char) : Nat :=
  digits.foldl (fun number digit => 16 * number + digitValue digit) 0

/-- The character that is written as a letter behind a backslash. -/
def ofLetter (letter : Char) : Char :=
  if letter = 't' then '\t'
  else if letter = 'r' then '\r'
  else if letter = 'n' then '\n'
  else if letter = '0' then '\x00'
  else letter

def unescape : List Char → Option Char
  | [] => none
  | [char] => some char
  | [_, letter] => some (ofLetter letter)
  | _ :: _ :: _ :: digits => some (Char.ofNat (hexadecimal digits.dropLast))

private theorem digitValue_digitChar : ∀ digit < 16, digitValue digit.digitChar = digit := by
  decide

private theorem exists_digit_of_mem_toDigits {number : Nat} {char : Char}
    (member : char ∈ Nat.toDigits 16 number) : ∃ digit < 16, char = Nat.digitChar digit := by
  induction number using Nat.strongRecOn with
  | ind number ih =>
    rcases Nat.lt_or_ge number 16 with small | large
    · rw [Nat.toDigits_of_lt_base small, List.mem_singleton] at member
      exact ⟨number, small, member⟩
    · rw [Nat.toDigits_of_base_le (by decide) large, List.mem_append, List.mem_singleton] at member
      rcases member with earlier | last
      · exact ih (number / 16) (by omega) earlier
      · exact ⟨number % 16, by omega, last⟩

private theorem hexadecimal_toDigits (number : Nat) :
    hexadecimal (Nat.toDigits 16 number) = number := by
  induction number using Nat.strongRecOn with
  | ind number ih =>
    rcases Nat.lt_or_ge number 16 with small | large
    · rw [Nat.toDigits_of_lt_base small, hexadecimal, List.foldl_cons, List.foldl_nil,
        digitValue_digitChar number small, Nat.mul_zero, Nat.zero_add]
    · have front : hexadecimal (Nat.toDigits 16 (number / 16)) = number / 16 :=
        ih (number / 16) (by omega)
      rw [hexadecimal] at front
      rw [Nat.toDigits_of_base_le (by decide) large, hexadecimal, List.foldl_append, front,
        List.foldl_cons, List.foldl_nil, digitValue_digitChar _ (by omega)]
      omega

theorem unescape_escape (char : Char) : unescape (escape '\'' char) = some char := by
  unfold escape
  split_ifs with tab carriage newline plain zero hidden
  · rw [tab]; decide
  · rw [carriage]; decide
  · rw [newline]; decide
  · rcases plain with rfl | rfl <;> decide
  · have same : char = '\x00' := Char.toNat_inj.mp zero
    rw [same]; decide
  · have front : (Nat.toDigits 16 char.toNat ++ ['\x7d']).dropLast = Nat.toDigits 16 char.toNat :=
      List.dropLast_concat
    simp only [List.cons_append, List.nil_append, unescape, front, hexadecimal_toDigits,
      Char.ofNat_toNat]
  · rfl

theorem char_injective : Function.Injective Quoted.char := by
  intro first second same
  have written : escape '\'' first = escape '\'' second := by
    simpa [Quoted.char, String.ofList_inj] using same
  have read := unescape_escape first
  rw [written, unescape_escape, Option.some_inj] at read
  exact read.symm

theorem newline_notMem_char (char : Char) : '\n' ∉ (Quoted.char char).toList := by
  have escaped : '\n' ∉ escape '\'' char := by
    unfold escape
    split_ifs with tab carriage newline plain zero hidden
    · decide
    · decide
    · decide
    · rcases plain with rfl | rfl <;> decide
    · decide
    · have digits : '\n' ∉ Nat.toDigits 16 char.toNat := by
        intro member
        obtain ⟨digit, small, same⟩ := exists_digit_of_mem_toDigits member
        have other : ∀ digit < 16, '\n' ≠ Nat.digitChar digit := by decide
        exact other digit small same
      simp [digits]
    · simpa using Ne.symm newline
  simpa [Quoted.char] using escaped

end ByteFormat.Quoted
