import ByteFormat.Proofs.Call.Delivery
import ByteFormat.Proofs.Print.Composition

/-! # Calls that end a line

The line form of a call puts a line end behind the format before anything else is done with it, so
what becomes of the line end depends on where the format ends. Outside of directives it is a literal
byte, and the call is the plain call with a line end behind its output. Behind a zero byte it is
never read. Inside a directive that only lacks its specifier it is taken for the specifier, and a
call that the plain form refuses is accepted. Right behind the point it is swallowed, and both forms
refuse the call (`line_call_by_ending`).
-/

namespace ByteFormat

def lineEnd : UInt8 := '\n'.toUInt8

private theorem untilNul_lineEnd : untilNul [lineEnd] = [lineEnd] := rfl

/-- A byte that completes a directive is its specifier, and nothing is left behind it. -/
private theorem Directive.read?_concat {bytes rest : List UInt8} {byte : UInt8}
    {directive : Directive} (cut : read? bytes = none)
    (read : read? (bytes ++ [byte]) = some (directive, rest)) :
    rest = [] ∧ directive.specifier = .ofByte byte := by
  obtain ⟨spelling, greedy, rfl, body⟩ := read?_eq_some_iff.mp read
  rcases List.eq_nil_or_concat rest with rfl | ⟨left, last, rfl⟩
  · have split : bytes ++ [byte] =
        flagBytes spelling.flag ++ (widthBytes spelling.width ++ (pointBytes spelling.places ++
          spelling.length.letters)) ++ [spelling.last] := by
      simpa [Spelling.body, Spelling.afterFlag, Spelling.afterWidth, Spelling.afterPoint] using body
    have same : byte = spelling.last := by
      simpa using (List.append_inj' split rfl).2
    exact ⟨rfl, by rw [same]; rfl⟩
  · -- A byte left over would leave the directive whole without the last byte.
    have split : bytes ++ [byte] = spelling.body ++ left ++ [last] := by
      simpa using body
    have whole : read? bytes = some (spelling.directive, left) :=
      read?_eq_some_iff.mpr ⟨spelling, greedy, rfl, (List.append_inj' split rfl).1⟩
    rw [cut] at whole
    cases whole

namespace Call

namespace Stage

/-- The stage behind further bytes. -/
def reach (stage : Stage) (bytes : List UInt8) : Stage :=
  bytes.foldl (fun stage byte => (stage.step byte).1) stage

private theorem reach_append (stage : Stage) (first second : List UInt8) :
    stage.reach (first ++ second) = (stage.reach first).reach second :=
  List.foldl_append

/-- A line end completes any directive except right behind the point, where it is swallowed. -/
private theorem reach_lineEnd (stage : Stage) :
    stage.reach [lineEnd] = if stage = .point then .precision else .outside := by
  cases stage <;> rfl

end Stage

/-- The pass refuses exactly what it ends inside a directive of. -/
private theorem slotsFrom?_eq_none_iff (stage : Stage) (bytes : List UInt8) :
    slotsFrom? stage bytes = none ↔ stage.reach bytes ≠ .outside := by
  induction bytes generalizing stage with
  | nil =>
    rw [slotsFrom?]
    split <;> simp_all [Stage.reach]
  | cons byte rest ih =>
    rcases step : stage.step byte with ⟨next, slot⟩
    rw [slotsFrom?_cons step, Option.map_eq_none_iff, ih]
    simp only [Stage.reach, List.foldl_cons, step]

private theorem reach_of_written {token : Token} {text : List UInt8}
    (written : token.Written text) :
    Stage.outside.reach text = .outside := by
  have read : Token.read? text = some (token, []) :=
    Token.read?_eq_some_iff.mpr ⟨text, (List.append_nil text).symm, written, by simp⟩
  have found := slotsFrom?_of_read? read
  by_contra inside
  rw [(slotsFrom?_eq_none_iff .outside text).mpr inside] at found
  cases found

/-- A byte that completes the last directive of a body adds that directive to the tokens, with
itself as the specifier. -/
private theorem scan_concat {body : List UInt8} {byte : UInt8}
    (inside : Stage.outside.reach body ≠ .outside)
    (completes : Stage.outside.reach (body ++ [byte]) = .outside) :
    ∃ directive : Directive, directive.specifier = .ofByte byte ∧
      Token.scan (body ++ [byte]) = Token.scan body ++ [.directive directive] := by
  fun_induction Token.scan body with
  | case1 body missing =>
    rcases Token.read?_eq_none_iff.mp missing with rfl | ⟨rest, rfl, cut⟩
    · exact absurd rfl inside
    · cases read : Directive.read? (rest ++ [byte]) with
      | none =>
        have refused : slotsFrom? .outside ('%'.toUInt8 :: rest ++ [byte]) = none := by
          have step : Stage.outside.step '%'.toUInt8 = (.percent, none) := rfl
          rw [List.cons_append, slotsFrom?_cons_none step, slotsFrom?_percent_eq_bind, read,
            Option.bind_none]
        exact absurd completes ((slotsFrom?_eq_none_iff _ _).mp refused)
      | some parsed =>
        obtain ⟨directive, left⟩ := parsed
        obtain ⟨rfl, specifier⟩ := Directive.read?_concat cut read
        have token : Token.read? ('%'.toUInt8 :: rest ++ [byte]) =
            some (.directive directive, []) := by
          simp [Token.read?, Token.isLiteral, read]
        refine ⟨directive, specifier, ?_⟩
        rw [Token.scan_of_read?_eq_some token, Token.scan_nil, List.nil_append]
  | case2 body token rest read ih =>
    obtain ⟨text, rfl, written, stop⟩ := Token.read?_eq_some_iff.mp read
    have outside := reach_of_written written
    rw [Stage.reach_append, outside] at inside
    rw [List.append_assoc, Stage.reach_append, outside] at completes
    obtain ⟨directive, specifier, same⟩ := ih inside completes
    -- The rest begins with a percent sign, which keeps the byte out of a literal run before it.
    obtain ⟨first, others, rfl⟩ : ∃ first others, rest = first :: others :=
      List.exists_cons_of_ne_nil fun empty => inside (by rw [empty]; rfl)
    have longer : Token.read? (text ++ (first :: others ++ [byte])) =
        some (token, first :: others ++ [byte]) :=
      Token.read?_eq_some_iff.mpr ⟨text, rfl, written, stop⟩
    refine ⟨directive, specifier, ?_⟩
    rw [List.append_assoc, Token.scan_of_read?_eq_some longer, same, List.cons_append]

/-- The stage in which a format ends. -/
def ending (format : List UInt8) : Stage :=
  Stage.outside.reach (untilNul format)

private theorem not_runsIntoCut_of_ending {format : List UInt8}
    (outside : ending format = .outside) :
    ¬ (Cursor.start format).RunsIntoCut := by
  intro cut
  exact (slotsFrom?_eq_none_iff _ _).mp (slots?_of_runsIntoCut cut) outside

private theorem slots?_of_ending {format : List UInt8} (outside : ending format = .outside) :
    slots? format = some ((tokens format).filterMap Slot.ofToken?) :=
  slots?_of_not_runsIntoCut (not_runsIntoCut_of_ending outside)

/-- A line end behind a format without zero bytes leads out of every stage except behind a point. -/
private theorem ending_lineEnd {format : List UInt8} (clean : 0 ∉ format) :
    ending (format ++ [lineEnd]) = if ending format = .point then .precision else .outside := by
  rw [ending, ending, untilNul_append clean, untilNul_lineEnd, untilNul_of_notMem clean,
    Stage.reach_append, Stage.reach_lineEnd]

private theorem slotsFrom?_concat_literal {stage : Stage} {bytes : List UInt8} {byte : UInt8}
    (outside : stage.reach bytes = .outside) (literal : Token.isLiteral byte = true) :
    slotsFrom? stage (bytes ++ [byte]) = slotsFrom? stage bytes := by
  induction bytes generalizing stage with
  | nil =>
    obtain rfl : stage = .outside := outside
    exact slotsFrom?_outside_literal literal []
  | cons first rest ih =>
    rcases step : stage.step first with ⟨next, slot⟩
    have behind : next.reach rest = .outside := by
      simpa only [Stage.reach, List.foldl_cons, step] using outside
    rw [List.cons_append, slotsFrom?_cons step, slotsFrom?_cons step, ih behind]

theorem slots?_lineEnd {format : List UInt8} (clean : 0 ∉ format)
    (outside : ending format = .outside) : slots? (format ++ [lineEnd]) = slots? format := by
  have literal : Token.isLiteral lineEnd = true := rfl
  rw [slots?, untilNul_append clean, untilNul_lineEnd, slots?, untilNul_of_notMem clean]
  rw [ending, untilNul_of_notMem clean] at outside
  exact slotsFrom?_concat_literal outside literal

/-- The tokens of a format that ends inside a directive, which a line end completes. -/
theorem tokens_lineEnd {format : List UInt8} (clean : 0 ∉ format)
    (inside : ending format ≠ .outside) (unpointed : ending format ≠ .point) :
    ∃ directive : Directive, directive.specifier = .echo lineEnd ∧
      tokens (format ++ [lineEnd]) = tokens format ++ [.directive directive] := by
  have completes := ending_lineEnd clean
  rw [if_neg unpointed, ending, untilNul_append clean, untilNul_lineEnd] at completes
  rw [ending, untilNul_of_notMem clean] at inside
  rw [tokens, tokens, untilNul_append clean, untilNul_lineEnd, untilNul_of_notMem clean]
  exact scan_concat inside completes

/-- A line end behind a format without zero bytes is written at the end, as a literal byte or as the
echoed specifier of the last directive, unless it is swallowed behind a point. -/
theorem printBytes_lineEnd {format : List UInt8} (clean : 0 ∉ format)
    (unpointed : ending format ≠ .point) (profile : Profile) (arguments : List Argument) :
    printBytes profile (format ++ [lineEnd]) arguments =
      printBytes profile format arguments ++ [lineEnd] := by
  by_cases outside : ending format = .outside
  · have whole := not_runsIntoCut_of_ending outside
    have last : tokens [lineEnd] = [.literal [lineEnd]] := by decide +kernel
    rw [printBytes_append clean whole, printBytes_eq_plan profile [lineEnd], last]
    rfl
  · obtain ⟨directive, specifier, same⟩ := tokens_lineEnd clean outside unpointed
    rw [printBytes_eq_plan, same, plan_append, List.flatMap_append, ← printBytes_eq_plan]
    simp [plan, specifier, Action.bytes]

namespace Expansion

/-- The calls that an accepted call makes on its sink, if every operand suits its slot. -/
def calls? (expansion : Expansion Operand) (profile : Profile) : Option (List SinkCall) :=
  (expansion.print? profile Recorder.empty).map fun printed => printed.sink.toList

/-- The bytes that an accepted call writes, if every operand suits its slot. -/
def bytes? (expansion : Expansion Operand) (profile : Profile) : Option (List UInt8) :=
  (expansion.calls? profile).map fun calls => calls.flatMap SinkCall.bytes

theorem calls?_eq (expansion : Expansion Operand) (profile : Profile) :
    expansion.calls? profile = expansion.wrapped?.map (printCalls profile expansion.format) := by
  rw [calls?, print?, Option.map_map]
  congr 1
  funext arguments
  simp [toList_print]

private theorem print?_eq_calls? {σ : Type} [Sink σ] (expansion : Expansion Operand)
    (profile : Profile) (sink : σ) :
    (expansion.print? profile sink).map Printed.sink =
      (expansion.calls? profile).map fun calls => calls.foldl SinkCall.apply sink := by
  rw [calls?_eq, print?, Option.map_map, Option.map_map]
  congr 1
  funext arguments
  exact print_sink_eq_calls profile expansion.format arguments sink

theorem bytes?_eq (expansion : Expansion Operand) (profile : Profile) :
    expansion.bytes? profile = expansion.wrapped?.map (printBytes profile expansion.format) := by
  rw [bytes?, calls?_eq, Option.map_map]
  congr 1
  funext arguments
  exact flatMap_bytes_printCalls profile expansion.format arguments

/-- A line end behind the format is written behind the bytes of a call, unless it is swallowed. -/
private theorem bytes?_lineEnd {format : List UInt8} (clean : 0 ∉ format)
    (unpointed : ending format ≠ .point) (arguments : List (Slot × Operand)) (profile : Profile) :
    bytes? { format := format ++ [lineEnd], arguments } profile =
      (bytes? { format, arguments } profile).map (· ++ [lineEnd]) := by
  rw [bytes?_eq, bytes?_eq, Option.map_map]
  congr 1
  funext wrapped
  exact printBytes_lineEnd clean unpointed profile wrapped

end Expansion

/-- What a call comes to: the error it is refused with, or else the bytes it writes. -/
def written (form : Form) (format : List UInt8) (operands : List Operand) (profile : Profile) :
    Except CallError (Option (List UInt8)) :=
  (expand form format operands).map fun expansion => expansion.bytes? profile

private theorem written_of_slots (form : Form) {format : List UInt8} {slots : List Slot}
    (found : slots? (form.complete format) = some slots) (operands : List Operand)
    (profile : Profile) :
    written form format operands profile =
      if operands.length = slots.length then
        .ok (Expansion.bytes?
          { format := form.complete format, arguments := slots.zip operands } profile)
      else .error (.operandCount slots.length operands.length) := by
  rw [written, expand, found]
  simp only
  split <;> rfl

private theorem written_of_ending (form : Form) {format : List UInt8}
    (inside : ending (form.complete format) ≠ .outside) (operands : List Operand)
    (profile : Profile) :
    written form format operands profile = .error .endsInsideDirective := by
  have refused : slots? (form.complete format) = none := (slotsFrom?_eq_none_iff _ _).mpr inside
  rw [written, expand, refused]
  rfl

private theorem written_line_of_zero {format : List UInt8} (zero : 0 ∈ format)
    (operands : List Operand) (profile : Profile) :
    written .line format operands profile = written .plain format operands profile := by
  have same : untilNul (format ++ [lineEnd]) = untilNul format :=
    untilNul_append_of_mem zero [lineEnd]
  by_cases outside : ending format = .outside
  · have plain := slots?_of_ending outside
    have line : slots? (format ++ [lineEnd]) = _ :=
      (congrArg (slotsFrom? .outside) same).trans plain
    have scanned : tokens (Form.line.complete format) = tokens format := congrArg Token.scan same
    have printed : printBytes profile (Form.line.complete format) = printBytes profile format := by
      funext arguments
      rw [printBytes_eq_plan, printBytes_eq_plan, scanned]
    rw [written_of_slots .plain plain, written_of_slots .line line, Expansion.bytes?_eq,
      Expansion.bytes?_eq, printed]
    rfl
  · have line : ending (format ++ [lineEnd]) ≠ .outside := by rwa [ending, same]
    rw [written_of_ending .plain outside, written_of_ending .line line]

private theorem length_slots (list : List Token) :
    (list.filterMap Slot.ofToken?).length = demand list := by
  have slotOf : Slot.ofToken? = fun token => token.taker?.map Slot.ofTaker :=
    funext Slot.ofToken?_eq_taker
  rw [slotOf, ← List.map_filterMap, List.length_map, demand]

/-- Where a format ends decides what its line form comes to. Outside of directives and without zero
bytes, it is refused like the plain form or writes what the plain form writes and a line end. With a
zero byte or right behind a point, it comes to the same as the plain form, without a line end.
Elsewhere inside a directive the plain form is refused, while the line form is accepted with
operands for the directives in front and writes what these write and a line end. Every sink is given
the bytes that are written. -/
theorem line_call_by_ending (format : List UInt8) (operands : List Operand) (profile : Profile) :
    (0 ∉ format → ending format = .outside →
      written .line format operands profile =
        (written .plain format operands profile).map (Option.map (· ++ [lineEnd]))) ∧
    (0 ∈ format ∨ ending format = .point →
      written .line format operands profile = written .plain format operands profile) ∧
    (0 ∉ format → ending format ≠ .outside → ending format ≠ .point →
      written .plain format operands profile = .error .endsInsideDirective ∧
      written .line format operands profile =
        if operands.length = demand (tokens format) then
          .ok ((Expansion.bytes?
            { format, arguments := ((tokens format).filterMap Slot.ofToken?).zip operands }
            profile).map (· ++ [lineEnd]))
        else .error (.operandCount (demand (tokens format)) operands.length)) ∧
    ∀ {σ : Type} [Sink σ] (expansion : Expansion Operand) (sink : σ),
      (expansion.print? profile sink).map Printed.sink =
        (expansion.calls? profile).map fun calls => calls.foldl SinkCall.apply sink := by
  refine ⟨?_, ?_, ?_, fun expansion => expansion.print?_eq_calls? profile⟩
  · intro clean outside
    have unpointed : ending format ≠ .point := by rw [outside]; decide
    have plain := slots?_of_ending outside
    have line := (slots?_lineEnd clean outside).trans plain
    rw [written_of_slots .plain plain, written_of_slots .line line, apply_ite (Except.map _)]
    congr 1
    exact congrArg Except.ok (Expansion.bytes?_lineEnd clean unpointed _ profile)
  · intro unread
    by_cases zero : 0 ∈ format
    · exact written_line_of_zero zero operands profile
    · have point := unread.resolve_left zero
      have plain : ending format ≠ .outside := by rw [point]; decide
      have line : ending (format ++ [lineEnd]) ≠ .outside := by
        rw [ending_lineEnd zero, if_pos point]
        decide
      rw [written_of_ending .line line, written_of_ending .plain plain]
  · intro clean inside unpointed
    obtain ⟨directive, specifier, same⟩ := tokens_lineEnd clean inside unpointed
    have completes := (ending_lineEnd clean).trans (if_neg unpointed)
    have line : slots? (format ++ [lineEnd]) = some ((tokens format).filterMap Slot.ofToken?) := by
      rw [slots?_of_ending completes, same, List.filterMap_append]
      simp [Slot.ofToken?, specifier, Slot.ofSpecifier?]
    refine ⟨written_of_ending .plain inside operands profile, ?_⟩
    rw [written_of_slots .line line, length_slots]
    congr 1
    exact congrArg Except.ok (Expansion.bytes?_lineEnd clean unpointed _ profile)

/-- Behind `a%5`, which lacks its specifier and which the plain form refuses, the line end is taken
for the specifier. Behind the zero byte in the middle of a format it is lost. -/
theorem line_call_by_ending_unlike_plain :
    written .plain (utf8 "a%5") [] { wide := true } = .error .endsInsideDirective ∧
    written .line (utf8 "a%5") [] { wide := true } = .ok (some (utf8 "a\n")) ∧
    written .line (utf8 "a%5.") [] { wide := true } = .error .endsInsideDirective ∧
    written .line [97, 0, 98] [] { wide := true } = .ok (some [97]) ∧
    written .line (utf8 "%d") [.int8 7] { wide := true } = .ok (some (utf8 "7\n")) := by
  obtain ⟨_, _, cut, _⟩ := line_call_by_ending (utf8 "a%5") [] { wide := true }
  obtain ⟨_, point, _⟩ := line_call_by_ending (utf8 "a%5.") [] { wide := true }
  obtain ⟨_, zero, _⟩ := line_call_by_ending [97, 0, 98] [] { wide := true }
  obtain ⟨whole, _⟩ := line_call_by_ending (utf8 "%d") [.int8 7] { wide := true }
  obtain ⟨refused, accepted⟩ := cut (by decide) (by decide) (by decide)
  refine ⟨refused, accepted.trans ?_, (point (.inr (by decide))).trans ?_,
    (zero (.inl (by decide))).trans ?_, (whole (by decide) (by decide)).trans ?_⟩
  · decide +kernel
  · decide +kernel
  · decide +kernel
  · decide +kernel

end Call

end ByteFormat
