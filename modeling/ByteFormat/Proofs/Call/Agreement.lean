import ByteFormat.Call.Slot
import ByteFormat.Proofs.Format.Run

/-! # Slots are the directives that take arguments

Slots are found by a pass over single bytes that knows only a stage, tokens by a reader that takes
whole parts and returns the rest. Both stay in step: from each stage, the pass finds what it would
find behind the part that the reader takes there. Hence a token contributes its slot and nothing
else, a run of the reader contributes the slots of its tokens, and the pass refuses a format exactly
when the reader meets a directive cut short.
-/

namespace ByteFormat.Call

namespace Slot

/-- The slot that a conversion opens at a length. -/
def ofConversion (length : Length) : Conversion → Slot
  | .char => .char
  | .text => .text
  | .float => .float
  | .pointer => .pointer
  | .signed => .signed length
  | .unsigned | .hex | .binary => .unsigned length

/-- The slot that a specifier opens at a length; an echoed byte opens none. -/
def ofSpecifier? (length : Length) : Specifier → Option Slot
  | .convert conversion => some (ofConversion length conversion)
  | .echo _ => none

/-- The slot of a token; literal runs and echoed bytes have none. -/
def ofToken? : Token → Option Slot
  | .literal _ => none
  | .directive directive => ofSpecifier? directive.length directive.specifier

private theorem ofByte?_eq (byte : UInt8) (length : Length) :
    ofByte? byte length = ofSpecifier? length (.ofByte byte) := by
  cases selected : Conversion.ofLetter? byte with
  | some conversion =>
    rw [Specifier.ofByte, selected]
    obtain rfl := (Conversion.ofLetter?_eq_some_iff byte conversion).mp selected
    cases conversion <;> rfl
  | none =>
    have other (conversion : Conversion) : byte ≠ conversion.letter := by
      intro same
      rw [(Conversion.ofLetter?_eq_some_iff byte conversion).mpr same] at selected
      cases selected
    have unsigned : ¬ (byte = 'u'.toUInt8 ∨ byte = 'x'.toUInt8 ∨ byte = 'b'.toUInt8) := by
      rintro (same | same | same)
      · exact other .unsigned same
      · exact other .hex same
      · exact other .binary same
    have char : byte ≠ 'c'.toUInt8 := other .char
    have text : byte ≠ 's'.toUInt8 := other .text
    have float : byte ≠ 'f'.toUInt8 := other .float
    have pointer : byte ≠ 'p'.toUInt8 := other .pointer
    have signed : byte ≠ 'd'.toUInt8 := other .signed
    rw [Specifier.ofByte, selected, ofByte?, if_neg char, if_neg text, if_neg float,
      if_neg pointer, if_neg signed, if_neg unsigned]
    rfl

end Slot

/-- What the pass finds from a specifier byte on, behind length letters that are known. -/
def specifierSlots? (length : Length) : List UInt8 → Option (List Slot)
  | [] => none
  | byte :: rest =>
      (slotsFrom? .outside rest).map ((Slot.ofSpecifier? length (.ofByte byte)).toList ++ ·)

private theorem isDigit_eq_isSome (byte : UInt8) :
    Stage.isDigit byte = (Directive.digit? byte).isSome := by
  simp only [Stage.isDigit, Directive.digit?]
  split <;> simp_all

theorem slotsFrom?_cons {stage next : Stage} {byte : UInt8} {slot : Option Slot}
    (step : stage.step byte = (next, slot)) (rest : List UInt8) :
    slotsFrom? stage (byte :: rest) = (slotsFrom? next rest).map (slot.toList ++ ·) := by
  rw [slotsFrom?, step]

theorem slotsFrom?_cons_none {stage next : Stage} {byte : UInt8}
    (step : stage.step byte = (next, none)) (rest : List UInt8) :
    slotsFrom? stage (byte :: rest) = slotsFrom? next rest := by
  simp [slotsFrom?_cons step]

/-- Two stages that read the next byte alike find the same slots. -/
private theorem slotsFrom?_cons_congr {stage other : Stage} {byte : UInt8}
    (same : stage.step byte = other.step byte) (rest : List UInt8) :
    slotsFrom? stage (byte :: rest) = slotsFrom? other (byte :: rest) := by
  rw [slotsFrom?, slotsFrom?, same]

theorem slotsFrom?_outside_literal {byte : UInt8} (literal : Token.isLiteral byte = true)
    (rest : List UInt8) : slotsFrom? .outside (byte :: rest) = slotsFrom? .outside rest := by
  have other : byte ≠ '%'.toUInt8 := by simpa [Token.isLiteral] using literal
  have step : Stage.outside.step byte = (.outside, none) := if_neg other
  exact slotsFrom?_cons_none step rest

private theorem slotsFrom?_outside_dropWhile (bytes : List UInt8) :
    slotsFrom? .outside (bytes.dropWhile Token.isLiteral) = slotsFrom? .outside bytes := by
  induction bytes with
  | nil => rfl
  | cons byte rest ih =>
    cases literal : Token.isLiteral byte with
    | true => rw [List.dropWhile_cons_of_pos literal, ih, slotsFrom?_outside_literal literal]
    | false => rw [List.dropWhile_cons_of_neg (by simp [literal])]

private theorem slotsFrom?_longLong (bytes : List UInt8) :
    slotsFrom? .longLong bytes = specifierSlots? .longLong bytes := by
  cases bytes with
  | nil => rfl
  | cons byte rest =>
    have step : Stage.longLong.step byte = (.outside, Slot.ofByte? byte .longLong) := rfl
    rw [slotsFrom?_cons step, specifierSlots?, Slot.ofByte?_eq]

private theorem slotsFrom?_precision (bytes : List UInt8) :
    slotsFrom? .precision bytes =
      specifierSlots? (Directive.readLength bytes).1 (Directive.readLength bytes).2 := by
  cases bytes with
  | nil => rfl
  | cons byte rest =>
    by_cases letter : byte = 'l'.toUInt8
    · have step : Stage.precision.step byte = (.long, none) := if_pos letter
      rw [slotsFrom?_cons_none step]
      simp only [Directive.readLength, if_pos letter]
      cases rest with
      | nil => rfl
      | cons second rest =>
        by_cases again : second = 'l'.toUInt8
        · have step : Stage.long.step second = (.longLong, none) := if_pos again
          simp only [if_pos again]
          rw [slotsFrom?_cons_none step, slotsFrom?_longLong]
        · have step : Stage.long.step second = (.outside, Slot.ofByte? second .long) :=
            if_neg again
          simp only [if_neg again]
          rw [slotsFrom?_cons step, specifierSlots?, Slot.ofByte?_eq]
    · have step : Stage.precision.step byte = (.outside, Slot.ofByte? byte .plain) :=
        if_neg letter
      simp only [Directive.readLength, if_neg letter]
      rw [slotsFrom?_cons step, specifierSlots?, Slot.ofByte?_eq]

private theorem slotsFrom?_width (bytes : List UInt8) :
    slotsFrom? .width bytes =
      (Directive.readPrecision? bytes).bind fun (_, rest) => slotsFrom? .precision rest := by
  cases bytes with
  | nil => rfl
  | cons byte rest =>
    by_cases point : byte = '.'.toUInt8
    · have step : Stage.width.step byte = (.point, none) := if_pos point
      rw [slotsFrom?_cons_none step]
      simp only [Directive.readPrecision?, if_pos point]
      cases rest with
      | nil => rfl
      | cons places rest =>
        have step : Stage.point.step places = (.precision, none) := rfl
        rw [slotsFrom?_cons_none step, Option.bind_some]
    · have same : Stage.width.step byte = Stage.precision.step byte := if_neg point
      simp only [Directive.readPrecision?, if_neg point]
      rw [slotsFrom?_cons_congr same, Option.bind_some]

private theorem slotsFrom?_zero (bytes : List UInt8) :
    slotsFrom? .zero bytes = slotsFrom? .width (Directive.readWidth bytes).2 := by
  cases bytes with
  | nil => rfl
  | cons byte rest =>
    rw [Directive.readWidth]
    cases digit : Directive.digit? byte with
    | some width =>
      have step : Stage.zero.step byte = (.width, none) :=
        if_pos (by rw [isDigit_eq_isSome, digit, Option.isSome_some])
      exact slotsFrom?_cons_none step rest
    | none =>
      have same : Stage.zero.step byte = Stage.width.step byte :=
        if_neg (by rw [isDigit_eq_isSome, digit, Option.isSome_none]; decide)
      exact slotsFrom?_cons_congr same rest

private theorem slotsFrom?_percent (bytes : List UInt8) :
    slotsFrom? .percent bytes = slotsFrom? .zero (Directive.readFill bytes).2 := by
  cases bytes with
  | nil => rfl
  | cons byte rest =>
    rw [Directive.readFill]
    by_cases zero : byte = '0'.toUInt8
    · have step : Stage.percent.step byte = (.zero, none) := if_pos zero
      rw [slotsFrom?_cons_none step, if_pos zero]
    · have same : Stage.percent.step byte = Stage.zero.step byte := if_neg zero
      rw [slotsFrom?_cons_congr same, if_neg zero]

/-- Behind a percent sign the pass finds the slot of the directive that can be read there and then
what follows it, and refuses a directive that is cut short. -/
theorem slotsFrom?_percent_eq_bind (bytes : List UInt8) :
    slotsFrom? .percent bytes =
      (Directive.read? bytes).bind fun (directive, rest) =>
        (slotsFrom? .outside rest).map ((Slot.ofToken? (.directive directive)).toList ++ ·) := by
  rw [slotsFrom?_percent, slotsFrom?_zero, slotsFrom?_width]
  simp only [Directive.read?]
  cases Directive.readPrecision? (Directive.readWidth (Directive.readFill bytes).2).2 with
  | none => rfl
  | some read =>
    simp only [Option.bind_some, slotsFrom?_precision]
    cases (Directive.readLength read.2).2 with
    | nil => rfl
    | cons byte rest => rfl

/-- A token contributes its slot, and the pass goes on behind it. -/
theorem slotsFrom?_of_read? {body rest : List UInt8} {token : Token}
    (read : Token.read? body = some (token, rest)) :
    slotsFrom? .outside body =
      (slotsFrom? .outside rest).map ((Slot.ofToken? token).toList ++ ·) := by
  cases body with
  | nil => cases read
  | cons byte tail =>
    simp only [Token.read?] at read
    split at read
    · next literal =>
      cases read
      rw [slotsFrom?_outside_literal literal, slotsFrom?_outside_dropWhile]
      simp [Slot.ofToken?]
    · next percent =>
      have sign : byte = '%'.toUInt8 := by simpa [Token.isLiteral] using percent
      obtain ⟨⟨directive, left⟩, found, same⟩ := Option.map_eq_some_iff.mp read
      cases same
      have step : Stage.outside.step byte = (.percent, none) := if_pos sign
      rw [slotsFrom?_cons_none step, slotsFrom?_percent_eq_bind, found, Option.bind_some]

private theorem slotsFrom?_of_cutShort {cursor : Cursor} (cut : cursor.CutShort) :
    slotsFrom? .outside cursor.remaining = none := by
  obtain ⟨rest, ahead, missing⟩ := cut
  have step : Stage.outside.step '%'.toUInt8 = (.percent, none) := rfl
  rw [ahead, slotsFrom?_cons_none step, slotsFrom?_percent_eq_bind, missing, Option.bind_none]

/-- A run contributes the slots of its tokens, in their order. -/
theorem slotsFrom?_of_run {cursor after : Cursor} {taken : List Token}
    (run : cursor.Run taken after) :
    slotsFrom? .outside cursor.remaining =
      (slotsFrom? .outside after.remaining).map (taken.filterMap Slot.ofToken? ++ ·) := by
  induction run with
  | nil cursor => simp
  | @cons cursor middle after token taken step run ih =>
    rw [slotsFrom?_of_read? (Cursor.next_remaining step), ih, Option.map_map]
    congr 1
    funext slots
    cases slot : Slot.ofToken? token <;> simp [slot]

/-- The pass refuses a format in which the reader comes to a directive cut short. -/
theorem slots?_of_runsIntoCut {format : List UInt8} (cut : (Cursor.start format).RunsIntoCut) :
    slots? format = none := by
  obtain ⟨taken, cursor, run, cut⟩ := cut
  have found := slotsFrom?_of_run run
  rw [slotsFrom?_of_cutShort cut] at found
  exact found

/-- The pass finds the slots of the tokens of any other format. -/
theorem slots?_of_not_runsIntoCut {format : List UInt8}
    (whole : ¬ (Cursor.start format).RunsIntoCut) :
    slots? format = some ((tokens format).filterMap Slot.ofToken?) := by
  obtain ⟨after, run, ended⟩ := Cursor.exists_run_to_end whole
  have found : slots? format = (slotsFrom? .outside after.remaining).map
      ((tokens format).filterMap Slot.ofToken? ++ ·) := slotsFrom?_of_run run
  rw [found, ended]
  simp [slotsFrom?]

theorem eq_filterMap_of_slots? {format : List UInt8} {slots : List Slot}
    (found : slots? format = some slots) : slots = (tokens format).filterMap Slot.ofToken? := by
  have whole : ¬ (Cursor.start format).RunsIntoCut := by
    intro cut
    rw [slots?_of_runsIntoCut cut] at found
    cases found
  rw [slots?_of_not_runsIntoCut whole] at found
  exact (Option.some.inj found).symm

/-- The pass that checks a call and the reader that prints agree on every format. The pass refuses
exactly the formats in which the reader comes to a directive cut short, and otherwise it finds the
slots of the reader's tokens, one for each directive that takes an argument. -/
theorem slots?_agrees_with_tokens (format : List UInt8) :
    (slots? format = none ↔ (Cursor.start format).RunsIntoCut) ∧
      ∀ slots, slots? format = some slots ↔
        ¬ (Cursor.start format).RunsIntoCut ∧
          slots = (tokens format).filterMap Slot.ofToken? := by
  by_cases cut : (Cursor.start format).RunsIntoCut
  · simp [slots?_of_runsIntoCut cut, cut]
  · simp [slots?_of_not_runsIntoCut cut, cut, eq_comm]

end ByteFormat.Call
