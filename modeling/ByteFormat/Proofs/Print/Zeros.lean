import ByteFormat.Proofs.Format.Canonical
import ByteFormat.Proofs.Numeral.Layout
import ByteFormat.Proofs.Print.Calls

/-! # Zero bytes in the output

A zero byte ends formats and texts, so none is read from them, and numeric fields are made of
digits, signs, points and fill bytes that a format can name. What is left are characters: printing
writes a zero byte for a character conversion whose argument has a zero as its low byte, and nowhere
else (`zeros_are_served_chars`).
-/

namespace ByteFormat

private theorem Radix.zero_notMem_numeral (radix : Radix) (value : Nat) : 0 ∉ radix.numeral value :=
  notMem_numeral (by decide) radix value

/-- The only zeros in a numeric field are its fill bytes. -/
theorem Magnitude.zero_notMem_field (magnitude : Magnitude) (radix : Radix) (negative : Bool)
    {padding : Padding} (fill : padding.fill ≠ 0) :
    0 ∉ magnitude.field radix negative padding := by
  have sign : 0 ∉ signBytes negative := by cases negative <;> decide
  rw [field_eq, List.mem_append, List.mem_append]
  rintro (filled | signed | digit)
  · exact fill (List.eq_of_mem_replicate filled).symm
  · exact sign signed
  · exact radix.zero_notMem_numeral _ digit

theorem FixedPoint.zero_notMem_field (value : Binary64) (precision : Nat) {padding : Padding}
    (fill : padding.fill ≠ 0) : 0 ∉ field value precision padding := by
  have whole : 0 ∉ wholeField value precision padding := Magnitude.zero_notMem_field _ _ _ fill
  have fraction : 0 ∉ fractionField value precision :=
    Magnitude.zero_notMem_field _ _ _ (by simp only; decide)
  rw [field, List.mem_append, List.mem_cons]
  rintro (zero | zero | zero)
  · exact whole zero
  · exact absurd zero (by decide)
  · exact fraction zero

private theorem Argument.zero_notMem_string (argument : Argument) : 0 ∉ argument.string := by
  cases argument with
  | text located => exact fun zero => ne_zero_of_mem_untilNul zero rfl
  | _ => exact List.not_mem_nil

private theorem Argument.byte_eq_zero_iff (argument : Argument) :
    argument.byte = 0 ↔ argument.bits.toNat % 256 = 0 := by
  rw [byte, ← UInt8.toNat_inj, UInt64.toNat_toUInt8]
  rfl

namespace Serving

/-- Whether a character is served whose byte is zero. -/
def isZeroChar (serving : Serving) : Bool :=
  serving.conversion = .char ∧ serving.argument.bits.toNat % 256 = 0

/-- Conversions other than characters write no zero byte. -/
theorem zero_notMem_bytes (profile : Profile) {serving : Serving}
    (fill : serving.directive.padding.fill ≠ 0) (other : serving.conversion ≠ .char) :
    0 ∉ serving.bytes profile := by
  obtain ⟨directive, conversion, argument⟩ := serving
  cases conversion with
  | char => exact absurd rfl other
  | text => exact argument.zero_notMem_string
  | float => exact FixedPoint.zero_notMem_field _ _ fill
  | pointer =>
    have marker : 0 ∉ ['0'.toUInt8, 'x'.toUInt8] := by decide
    have digits : 0 ∉ directive.pointer.integerField profile .pointer argument :=
      Magnitude.zero_notMem_field _ _ _ (by simp only [Directive.pointer]; decide)
    exact fun zero => (List.mem_append.mp zero).elim marker digits
  | signed | unsigned | hex | binary => exact Magnitude.zero_notMem_field _ _ _ fill

private theorem count_zero_bytes (profile : Profile) {serving : Serving}
    (fill : serving.directive.padding.fill ≠ 0) :
    (serving.bytes profile).count 0 = if serving.isZeroChar then 1 else 0 := by
  by_cases char : serving.conversion = .char
  · have single : serving.bytes profile = [serving.argument.byte] := by rw [bytes, char]
    have zero := serving.argument.byte_eq_zero_iff
    simp only [single, List.count_singleton, beq_iff_eq, zero, isZeroChar, char, true_and,
      decide_eq_true_eq]
  · have none : serving.isZeroChar = false := by simp [isZeroChar, char]
    rw [none, List.count_eq_zero.mpr (zero_notMem_bytes profile fill char)]
    rfl

end Serving

namespace Action

def isChar : Action → Bool
  | .serve serving => serving.conversion == .char
  | _ => false

/-- What an action takes from the format brings no zero byte. -/
def Clean : Action → Prop
  | .literal bytes => 0 ∉ bytes
  | .echo byte => byte ≠ 0
  | .serve serving => serving.directive.padding.fill ≠ 0
  | .skip _ => True

theorem Clean.zero_notMem_bytes {action : Action} (clean : action.Clean) (profile : Profile)
    (other : action.isChar = false) : 0 ∉ action.bytes profile := by
  cases action with
  | literal run => exact clean
  | echo byte => exact fun zero => clean (List.mem_singleton.mp zero).symm
  | serve serving => exact serving.zero_notMem_bytes profile clean (by simpa [isChar] using other)
  | skip conversion => exact List.not_mem_nil

end Action

private theorem Directive.Normal.fill_ne_zero {directive : Directive} (normal : directive.Normal) :
    directive.padding.fill ≠ 0 := by
  rcases normal.fill with space | zero
  · rw [space]
    decide
  · rw [zero]
    decide

private theorem Directive.Normal.echo_ne_zero {directive : Directive} (normal : directive.Normal)
    {byte : UInt8} (echoed : directive.specifier = .echo byte) : byte ≠ 0 := by
  obtain ⟨last, nonzero, same⟩ := normal.specifier
  have shown : byte = last := by
    rw [← Specifier.byte_ofByte last, ← same, echoed]
    rfl
  exact shown ▸ nonzero

/-- What is planned at normal tokens is clean, whatever the arguments are. -/
private theorem clean_of_mem_plan {list : List Token} (normal : ∀ token ∈ list, token.Normal)
    (arguments : List Argument) : ∀ action ∈ plan list arguments, action.Clean := by
  induction list generalizing arguments with
  | nil => exact List.forall_mem_nil _
  | cons token rest ih =>
    obtain ⟨first, others⟩ := List.forall_mem_cons.mp normal
    cases token with
    | literal bytes => exact List.forall_mem_cons.mpr ⟨first.2.2, ih others arguments⟩
    | directive parsed =>
      cases specifier : parsed.specifier with
      | echo byte =>
        simp only [plan, specifier, List.forall_mem_cons]
        exact ⟨first.echo_ne_zero specifier, ih others arguments⟩
      | convert conversion =>
        cases arguments with
        | nil =>
          simp only [plan, specifier, List.forall_mem_cons]
          exact ⟨trivial, ih others []⟩
        | cons argument arguments =>
          simp only [plan, specifier, List.forall_mem_cons]
          exact ⟨first.fill_ne_zero, ih others arguments⟩

private theorem count_zero_bytes {actions : List Action} (clean : ∀ action ∈ actions, action.Clean)
    (profile : Profile) :
    (actions.flatMap (Action.bytes profile)).count 0 =
      (servings actions).countP Serving.isZeroChar := by
  induction actions with
  | nil => rfl
  | cons action rest ih =>
    obtain ⟨first, others⟩ := List.forall_mem_cons.mp clean
    rw [List.flatMap_cons, List.count_append, ih others]
    cases action with
    | serve serving =>
      have front := serving.count_zero_bytes profile first
      have served : servings (.serve serving :: rest) = serving :: servings rest := rfl
      rw [served, List.countP_cons, ← front, Nat.add_comm, Action.bytes]
    | literal | echo =>
      rw [List.count_eq_zero.mpr (first.zero_notMem_bytes profile rfl), Nat.zero_add]
      rfl
    | skip conversion => exact Nat.zero_add _

theorem clean_plan_tokens (format : List UInt8) (arguments : List Argument) :
    ∀ action ∈ plan (tokens format) arguments, action.Clean :=
  clean_of_mem_plan (normalTokens_tokens format).each arguments

/-- Zero bytes in the output are characters. Whatever the format and the arguments are, the output
is made of what is written for each literal run, echoed byte and conversion. It has as many zero
bytes as character conversions are served with an argument whose low byte is zero, and what is
written for anything else has none. -/
theorem zeros_are_served_chars (profile : Profile) (format : List UInt8)
    (arguments : List Argument) :
    printBytes profile format arguments =
      (plan (tokens format) arguments).flatMap (Action.bytes profile) ∧
    (printBytes profile format arguments).count 0 =
      (((tokens format).filterMap Token.taker?).zip arguments).countP
        (fun (taker, argument) => taker.2 = .char ∧ argument.bits.toNat % 256 = 0) ∧
    ∀ action ∈ plan (tokens format) arguments, action.isChar = false →
      0 ∉ action.bytes profile := by
  have clean := clean_plan_tokens format arguments
  refine ⟨printBytes_eq_plan profile format arguments, ?_, ?_⟩
  · rw [printBytes_eq_plan, count_zero_bytes clean, servings_plan, List.countP_map]
    rfl
  · intro action member other
    exact (clean action member).zero_notMem_bytes profile other

/-- Of two characters, the one with 256 as its argument is a zero byte. The text is cut before its
own zero, and the conversion beyond the last argument writes nothing. -/
theorem zeros_are_served_chars_cut_text :
    (printBytes { wide := true } (utf8 "%c%s%c%c")
      [.int 256, .text { bytes := [65, 0, 66], address := 4096 }, .uint 65]).count 0 = 1 ∧
    0 ∉ (Action.serve { directive := { specifier := .convert .text }, conversion := .text
                        argument := .text { bytes := [65, 0, 66], address := 4096 } }).bytes
      { wide := true } := by
  obtain ⟨_, count, others⟩ := zeros_are_served_chars { wide := true } (utf8 "%c%s%c%c")
    [.int 256, .text { bytes := [65, 0, 66], address := 4096 }, .uint 65]
  exact ⟨count.trans (by decide +kernel), others _ (by decide +kernel) rfl⟩

end ByteFormat
