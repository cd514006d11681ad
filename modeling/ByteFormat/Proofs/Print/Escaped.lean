import ByteFormat.Proofs.Call.Delivery
import ByteFormat.Proofs.Print.Composition

/-! # Escaped texts

The grammar of formats has no escape. A doubled percent sign stands for one all the same: the second
one names no conversion, so it is echoed, takes no argument and opens no slot. Byte by byte, a text
whose percent signs are doubled therefore prints as itself, whatever it looks like, and leaves the
arguments to what follows it (`escaped_text_prints_itself`).
-/

namespace ByteFormat

/-- How a byte is written in a format to stand for itself. -/
def escapedByte (byte : UInt8) : List UInt8 :=
  if byte = '%'.toUInt8 then ['%'.toUInt8, '%'.toUInt8] else [byte]

/-- A text with its percent signs doubled. -/
def escaped (text : List UInt8) : List UInt8 :=
  text.flatMap escapedByte

def escapedToken (byte : UInt8) : Token :=
  if byte = '%'.toUInt8 then .directive { specifier := .echo byte } else .literal [byte]

private theorem escaped_cons (byte : UInt8) (rest : List UInt8) :
    escaped (byte :: rest) = escapedByte byte ++ escaped rest :=
  List.flatMap_cons

private theorem zero_notMem_escapedByte {byte : UInt8} (nonzero : byte ≠ 0) :
    0 ∉ escapedByte byte := by
  unfold escapedByte
  split
  · decide
  · simpa using nonzero.symm

private theorem read?_escapedByte (byte : UInt8) :
    Token.read? (escapedByte byte) = some (escapedToken byte, []) := by
  unfold escapedByte escapedToken
  split
  · next percent =>
    subst percent
    decide
  · next other =>
    have literal : Token.isLiteral byte = true := bne_iff_ne.mpr other
    exact if_pos literal

private theorem tokens_escapedByte {byte : UInt8} (nonzero : byte ≠ 0) :
    tokens (escapedByte byte) = [escapedToken byte] := by
  have whole := untilNul_of_notMem (zero_notMem_escapedByte nonzero)
  rw [tokens, whole, Token.scan_of_read?_eq_some (read?_escapedByte byte), Token.scan_nil]

private theorem slots?_escapedByte_append {byte : UInt8} (nonzero : byte ≠ 0) (more : List UInt8) :
    Call.slots? (escapedByte byte ++ more) = Call.slots? more := by
  rw [Call.slots?, untilNul_append (zero_notMem_escapedByte nonzero), Call.slots?]
  by_cases percent : byte = '%'.toUInt8
  · have opens : Call.Stage.outside.step '%'.toUInt8 = (.percent, none) := rfl
    have closes : Call.Stage.percent.step '%'.toUInt8 = (.outside, none) := by decide
    rw [escapedByte, if_pos percent, List.cons_append, List.cons_append, List.nil_append,
      Call.slotsFrom?_cons_none opens, Call.slotsFrom?_cons_none closes]
  · have literal : Token.isLiteral byte = true := bne_iff_ne.mpr percent
    rw [escapedByte, if_neg percent, List.singleton_append,
      Call.slotsFrom?_outside_literal literal]

private theorem not_runsIntoCut_escapedByte {byte : UInt8} (nonzero : byte ≠ 0) :
    ¬ (Cursor.start (escapedByte byte)).RunsIntoCut := by
  intro cut
  -- A format that is cut short has no list of slots, and an escaped byte has the empty one.
  have slots := slots?_escapedByte_append nonzero []
  rw [List.append_nil, Call.slots?_of_runsIntoCut cut] at slots
  cases slots

private theorem demand_escapedToken (byte : UInt8) : demand [escapedToken byte] = 0 := by
  unfold escapedToken
  split <;> rfl

private theorem printBytes_escapedByte_append {byte : UInt8} (nonzero : byte ≠ 0)
    (profile : Profile) (more : List UInt8) (arguments : List Argument) :
    printBytes profile (escapedByte byte ++ more) arguments =
      byte :: printBytes profile more arguments := by
  have alone : printBytes profile (escapedByte byte) arguments = [byte] := by
    rw [printBytes_eq_plan, tokens_escapedByte nonzero, escapedToken]
    split <;> rfl
  rw [printBytes_append (zero_notMem_escapedByte nonzero) (not_runsIntoCut_escapedByte nonzero),
    alone, tokens_escapedByte nonzero, demand_escapedToken, List.drop_zero, List.singleton_append]

/-- An escaped byte is reported exactly if it is a percent sign. -/
private theorem degradations_escapedByte_append {byte : UInt8} (nonzero : byte ≠ 0)
    (profile : Profile) (more : List UInt8) (arguments : List Argument) {σ : Type} [Sink σ]
    (sink : σ) :
    (print profile (escapedByte byte ++ more) arguments sink).degradations =
      (if byte = '%'.toUInt8 then [.unrecognized byte] else []) ++
        (print profile more arguments sink).degradations := by
  have alone : (print profile (escapedByte byte) arguments sink).degradations =
      if byte = '%'.toUInt8 then [.unrecognized byte] else [] := by
    rw [print_eq_plan, tokens_escapedByte nonzero, escapedToken]
    split <;> rfl
  rw [degradations_append (zero_notMem_escapedByte nonzero)
    (not_runsIntoCut_escapedByte nonzero), alone, tokens_escapedByte nonzero, demand_escapedToken,
    List.drop_zero]

section

variable {text : List UInt8} (clean : 0 ∉ text)

include clean

private theorem slots?_escaped_append (more : List UInt8) :
    Call.slots? (escaped text ++ more) = Call.slots? more := by
  induction text with
  | nil => rfl
  | cons byte rest ih =>
    obtain ⟨nonzero, clean⟩ := List.ne_and_not_mem_of_not_mem_cons clean
    rw [escaped_cons, List.append_assoc, slots?_escapedByte_append nonzero.symm, ih clean]

theorem slots?_escaped : Call.slots? (escaped text) = some [] := by
  rw [← List.append_nil (escaped text), slots?_escaped_append clean]
  rfl

/-- An escaped text writes itself, and what follows gets all the arguments. -/
theorem printBytes_escaped_append (profile : Profile) (more : List UInt8)
    (arguments : List Argument) :
    printBytes profile (escaped text ++ more) arguments =
      text ++ printBytes profile more arguments := by
  induction text with
  | nil => rfl
  | cons byte rest ih =>
    obtain ⟨nonzero, clean⟩ := List.ne_and_not_mem_of_not_mem_cons clean
    rw [escaped_cons, List.append_assoc, printBytes_escapedByte_append nonzero.symm, ih clean,
      List.cons_append]

theorem printBytes_escaped (profile : Profile) (arguments : List Argument) :
    printBytes profile (escaped text) arguments = text := by
  have silent : printBytes profile [] arguments = [] := by
    rw [printBytes_eq_plan, tokens, untilNul_nil, Token.scan_nil, plan, List.flatMap_nil]
  rw [← List.append_nil (escaped text), printBytes_escaped_append clean, silent, List.append_nil]

private theorem degradations_escaped_append (profile : Profile) (more : List UInt8)
    (arguments : List Argument) {σ : Type} [Sink σ] (sink : σ) :
    (print profile (escaped text ++ more) arguments sink).degradations =
      List.replicate (text.count '%'.toUInt8) (.unrecognized '%'.toUInt8) ++
        (print profile more arguments sink).degradations := by
  induction text with
  | nil => rfl
  | cons byte rest ih =>
    obtain ⟨nonzero, clean⟩ := List.ne_and_not_mem_of_not_mem_cons clean
    rw [escaped_cons, List.append_assoc, degradations_escapedByte_append nonzero.symm, ih clean,
      List.count_cons]
    by_cases percent : byte = '%'.toUInt8
    · simp [percent, List.replicate_succ]
    · simp [percent]

theorem demand_escaped : demand (tokens (escaped text)) = 0 := by
  have takers := Call.slots?_eq_takers (slots?_escaped clean)
  rw [demand, List.map_eq_nil_iff.mp takers.symm, List.length_nil]

/-- A call whose format is an escaped text is accepted exactly without operands, in every form. -/
theorem expand_escaped (form : Call.Form) {α : Type} (operands : List α)
    (expansion : Call.Expansion α) :
    Call.expand form (escaped text) operands = .ok expansion ↔
      operands = [] ∧ expansion = { format := form.complete (escaped text), arguments := [] } := by
  have slots : Call.slots? (form.complete (escaped text)) = some [] := by
    cases form with
    | plain | buffer => exact slots?_escaped clean
    | line => exact slots?_escaped_append clean ['\n'.toUInt8]
  simp only [Call.expand, slots, List.length_nil, List.length_eq_zero_iff]
  split
  · next none => simp [none, eq_comm]
  · next some => simp [some]

end

/-- An escaped text prints itself. Whatever the arguments are, its format writes the text, and what
follows the format is printed as if it stood alone, with all the arguments; each percent sign of the
text is reported as an unknown conversion. The format asks for no argument and has no slot, and a
call with it is accepted exactly without operands. -/
theorem escaped_text_prints_itself {text : List UInt8} (clean : 0 ∉ text) :
    (∀ (profile : Profile) (arguments : List Argument),
      printBytes profile (escaped text) arguments = text ∧
      ∀ more : List UInt8,
        printBytes profile (escaped text ++ more) arguments =
          text ++ printBytes profile more arguments ∧
        ∀ {σ : Type} [Sink σ] (sink : σ),
          (print profile (escaped text ++ more) arguments sink).degradations =
            List.replicate (text.count '%'.toUInt8) (.unrecognized '%'.toUInt8) ++
              (print profile more arguments sink).degradations) ∧
    demand (tokens (escaped text)) = 0 ∧
    Call.slots? (escaped text) = some [] ∧
    ∀ (form : Call.Form) {α : Type} (operands : List α) (expansion : Call.Expansion α),
      Call.expand form (escaped text) operands = .ok expansion ↔
        operands = [] ∧
          expansion = { format := form.complete (escaped text), arguments := [] } := by
  refine ⟨?_, demand_escaped clean, slots?_escaped clean, expand_escaped clean⟩
  intro profile arguments
  refine ⟨printBytes_escaped clean profile arguments, ?_⟩
  intro more
  exact ⟨printBytes_escaped_append clean profile more arguments,
    degradations_escaped_append clean profile more arguments⟩

/-- Escaped, a text that would be two directives and a directive cut short is printed as it is, and
the argument is left to the directive behind it. -/
theorem escaped_text_prints_itself_directives :
    escaped (utf8 "%d%%05.") = utf8 "%%d%%%%05." ∧
    printBytes { wide := true } (escaped (utf8 "%d%%05.") ++ utf8 "%x") [.int 26] =
      utf8 "%d%%05.1A" ∧
    Call.slots? (escaped (utf8 "%d%%05.")) = some [] := by
  have clean : 0 ∉ utf8 "%d%%05." := by decide +kernel
  obtain ⟨prints, _, slots, _⟩ := escaped_text_prints_itself clean
  obtain ⟨_, before⟩ := prints { wide := true } [.int 26]
  refine ⟨by decide +kernel, (before (utf8 "%x")).1.trans ?_, slots⟩
  decide +kernel

end ByteFormat
