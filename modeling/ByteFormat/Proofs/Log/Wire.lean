import ByteFormat.Proofs.Log.Lines
import ByteFormat.Proofs.Log.Tracing
import ByteFormat.Proofs.Quoted.Reading

/-! # The wire of a logger

A logger writes a record as one line on its wire. Printing the head of a line reports nothing, so a
record that is handed in never causes another one. The records of degradations hold no line end of
their own, whatever bytes a format consists of, and differ from each other. So where nothing else is
written to the wire, its lines are the degradations, one each and in order, and the wire tells which
they were (`TracedRun.wire_determines_degradations`).
-/

namespace ByteFormat

/-- Logging a record hands in no other one, whatever would be done with it. -/
private theorem Log.Hub.logNested_eq [Conventions] {γ σ : Type} [Hub γ] [Sink σ]
    (nested : σ → Record → σ) (hub : γ) (record : Record) (sink : σ) :
    logNested nested hub record sink = log hub record sink := by
  unfold log logNested
  cases reached? hub record.level with
  | none => rfl
  | some logger => simp only [Logger.logNested, Logger.logEntryNested_eq]

private theorem Conversion.name_injective : Function.Injective Conversion.name := by
  intro first second
  cases first <;> cases second <;> decide

private theorem toNat_ofNat_byte (byte : UInt8) : (Char.ofNat byte.toNat).toNat = byte.toNat := by
  have valid : byte.toNat.isValidChar := .inl (Nat.lt_trans byte.toNat_lt (by decide))
  rw [Char.ofNat, dif_pos valid]
  rfl

namespace Degradation

private theorem message_unrecognized_ne_unsupplied (byte : UInt8) (conversion : Conversion) :
    message (.unrecognized byte) ≠ message (.unsupplied conversion) := by
  rw [message_unrecognized, message_unsupplied]
  intro same
  have starts := congrArg (·.toList.head?) same
  simp [String.toList_append] at starts

theorem message_injective : Function.Injective message := by
  intro first second same
  cases first with
  | unrecognized byte =>
    cases second with
    | unrecognized other =>
      rw [message_unrecognized, message_unrecognized, String.append_right_inj] at same
      have codes := congrArg Char.toNat (Quoted.char_injective same)
      rw [toNat_ofNat_byte, toNat_ofNat_byte, UInt8.toNat_inj] at codes
      rw [codes]
    | unsupplied conversion => exact absurd same (message_unrecognized_ne_unsupplied _ _)
  | unsupplied conversion =>
    cases second with
    | unrecognized byte => exact absurd same.symm (message_unrecognized_ne_unsupplied _ _)
    | unsupplied other =>
      rw [message_unsupplied, message_unsupplied, String.append_right_inj] at same
      rw [Conversion.name_injective same]

private theorem newline_notMem_message (degradation : Degradation) :
    '\n' ∉ degradation.message.toList := by
  cases degradation with
  | unrecognized byte =>
    have front : '\n' ∉ "unrecognized conversion ".toList := by decide
    rw [message_unrecognized, String.toList_append, List.mem_append]
    exact fun member => member.elim front (Quoted.newline_notMem_char _)
  | unsupplied conversion =>
    have front : '\n' ∉ "no argument left for ".toList := by decide
    have named : '\n' ∉ conversion.name.toList := by cases conversion <;> decide
    rw [message_unsupplied, String.toList_append, List.mem_append]
    exact fun member => member.elim front named

variable [Log.Conventions]

def line (degradation : Degradation) : List UInt8 :=
  degradation.record.line

/-- What all lines begin with. -/
private def lineHead : List UInt8 :=
  utf8 "[" ++ utf8 Log.Level.trace.name ++ utf8 "] " ++ utf8 "ioprintf" ++ utf8 ": "

private theorem line_eq (degradation : Degradation) :
    degradation.line = lineHead ++ utf8 degradation.message := by
  rw [line, Log.Record.line, lineHead]
  congr 1

private theorem newline_notMem_lineHead : '\n'.toUInt8 ∉ lineHead := by
  have fixed : '\n'.toUInt8 ∉ utf8 "[" ∧ '\n'.toUInt8 ∉ utf8 "] " ∧
      '\n'.toUInt8 ∉ utf8 "ioprintf" ∧ '\n'.toUInt8 ∉ utf8 ": " := by
    decide +kernel
  have word : '\n'.toUInt8 ∉ utf8 Log.Level.trace.name :=
    Log.Level.trace.notMem_utf8_name (by decide) (by decide)
  obtain ⟨first, second, third, fourth⟩ := fixed
  simp only [lineHead, List.mem_append, not_or]
  exact ⟨⟨⟨⟨first, word⟩, second⟩, third⟩, fourth⟩

theorem newline_notMem_line (degradation : Degradation) : '\n'.toUInt8 ∉ degradation.line := by
  rw [line_eq, List.mem_append]
  rintro (early | late)
  · exact newline_notMem_lineHead early
  · exact degradation.newline_notMem_message (mem_of_mem_utf8 (by decide) late)

theorem line_injective : Function.Injective line := by
  intro first second same
  rw [line_eq, line_eq] at same
  exact message_injective (utf8_inj.mp (List.append_cancel_left same))

end Degradation

/-- Lines that hold no end of line are found again between the ends. -/
private theorem splitOn_flatMap_terminated {stop : UInt8} {lines : List (List UInt8)}
    (clean : ∀ line ∈ lines, stop ∉ line) :
    (lines.flatMap (· ++ [stop])).splitOn stop = lines ++ [[]] := by
  induction lines with
  | nil => exact List.splitOn_nil stop
  | cons line rest ih =>
    rw [List.flatMap_cons, List.append_assoc, List.singleton_append,
      List.splitOn_append_cons_self_of_not_mem (clean line (by simp)),
      ih fun other member => clean other (by simp [member]), List.cons_append]

/-- A call of printing: what is printed, and the sink as it is found. Calls may have sinks of
different kinds. -/
structure PrintCall where
  {State : Type}
  [takes : Sink State]
  sink : State
  format : List UInt8
  arguments : List Argument

attribute [instance] PrintCall.takes

def PrintCall.degradations (call : PrintCall) : List Degradation :=
  due (tokens call.format) call.arguments.length

section

variable [Log.Conventions]

namespace PrintCall

variable {γ : Type} [Log.Hub γ] (hub : γ) (profile : Profile)

/-- The wire after a call that hands in its records to a common log. -/
def wireAfter (wire : Collector) (call : PrintCall) : Collector :=
  (trace (Traced.handIn fun wire record => Log.Hub.log hub record wire) profile call.format
    call.arguments { sink := call.sink, log := wire }).log

/-- A call leaves the wire as if its degradations were reported in the end. -/
private theorem wireAfter_eq_report (wire : Collector) (call : PrintCall) :
    call.wireAfter hub profile wire = Log.Hub.report hub call.degradations wire := by
  rw [wireAfter, trace_eq, Log.Hub.report, List.foldl_map]
  rfl

private theorem foldl_wireAfter (calls : List PrintCall) (wire : Collector) :
    calls.foldl (wireAfter hub profile) wire =
      Log.Hub.report hub (calls.flatMap degradations) wire := by
  induction calls generalizing wire with
  | nil => rfl
  | cons call rest ih =>
    rw [List.foldl_cons, wireAfter_eq_report, ih, List.flatMap_cons, Log.Hub.report,
      Log.Hub.report, Log.Hub.report, List.foldl_append]

end PrintCall

/-- A program that puts a logger for the finest level in place in a common log and then prints, call
after call. -/
structure TracedRun where
  {State : Type}
  [common : Log.Hub State]
  [lawful : Log.LawfulHub State]
  logger : Log.Logger
  finest : logger.threshold = .upTo .trace
  hub : State
  installed : Log.Hub.install (Log.Hub.idle : State) logger = .ok hub
  calls : List PrintCall

attribute [instance] TracedRun.common TracedRun.lawful

namespace TracedRun

def wire (run : TracedRun) : List UInt8 :=
  (run.calls.foldl (PrintCall.wireAfter run.hub run.logger.profile) Collector.empty).toList

def degradations (run : TracedRun) : List Degradation :=
  run.calls.flatMap PrintCall.degradations

private theorem reached?_trace (run : TracedRun) :
    Log.Hub.reached? run.hub .trace = some run.logger := by
  have passes : run.logger.threshold.admits .trace = true :=
    (Log.Threshold.admits_trace_iff _).mpr run.finest
  obtain ⟨hub, put, same⟩ := Log.Hub.install_eq_ok run.installed
  rw [same, Log.LawfulHub.reached?_of_set put, if_pos passes]

/-- A degradation that is handed in passes the common log and the logger. -/
theorem toList_log (run : TracedRun) (degradation : Degradation) (wire : Collector) :
    (Log.Hub.log run.hub degradation.record wire).toList =
      wire.toList ++ (degradation.line ++ ['\n'.toUInt8]) := by
  have passes : run.logger.enabled degradation.record = true :=
    (Log.Threshold.admits_trace_iff _).mpr run.finest
  have reached : Log.Hub.reached? run.hub degradation.record.level = some run.logger :=
    run.reached?_trace
  rw [Log.Hub.log, Log.Hub.logNested, reached]
  exact Log.Logger.toList_log passes wire

/-- Degradations that are reported are added to the wire, a line each. -/
theorem toList_report (run : TracedRun) (degradations : List Degradation) (wire : Collector) :
    (Log.Hub.report run.hub degradations wire).toList =
      wire.toList ++ (degradations.map Degradation.line).flatMap (· ++ ['\n'.toUInt8]) := by
  induction degradations generalizing wire with
  | nil => simp [Log.Hub.report]
  | cons degradation rest ih =>
    have step : Log.Hub.report run.hub (degradation :: rest) wire =
        Log.Hub.report run.hub rest (Log.Hub.log run.hub degradation.record wire) := rfl
    rw [step, ih, run.toList_log, List.map_cons, List.flatMap_cons, List.append_assoc]

/-- The wire holds the lines of the degradations and nothing else. -/
theorem wire_eq (run : TracedRun) :
    run.wire = (run.degradations.map Degradation.line).flatMap (· ++ ['\n'.toUInt8]) := by
  rw [wire, PrintCall.foldl_wireAfter, run.toList_report, Collector.toList_empty, List.nil_append]
  rfl

theorem splitOn_wire (run : TracedRun) :
    run.wire.splitOn '\n'.toUInt8 = run.degradations.map Degradation.line ++ [[]] := by
  rw [wire_eq]
  apply splitOn_flatMap_terminated
  intro line member
  obtain ⟨degradation, _, rfl⟩ := List.mem_map.mp member
  exact degradation.newline_notMem_line

/-- The wire cannot be forged by what is printed. The wire is what the logger writes; the sinks of
the calls are apart from it, each call having one of its own. Cut at the ends of lines, the wire
consists of one line for each degradation, in order, and no such line holds an end of line. Two runs
leave the same wire exactly if they had the same degradations, whichever their calls were. And a
record that is handed in never gives rise to another one: nothing changes if the logger's own
printing is traced, whatever is done with its records. -/
theorem wire_determines_degradations (run : TracedRun) :
    run.wire.splitOn '\n'.toUInt8 = run.degradations.map Degradation.line ++ [[]] ∧
    (∀ degradation ∈ run.degradations, '\n'.toUInt8 ∉ degradation.line) ∧
    (∀ other : TracedRun, other.wire = run.wire ↔ other.degradations = run.degradations) ∧
    ∀ {σ : Type} [Sink σ] (nested : σ → Log.Record → σ) (record : Log.Record) (sink : σ),
      Log.Hub.logNested nested run.hub record sink = Log.Hub.log run.hub record sink := by
  refine ⟨run.splitOn_wire, fun degradation _ => degradation.newline_notMem_line, ?_, ?_⟩
  · intro other
    constructor
    · intro same
      have lines : other.degradations.map Degradation.line ++ [[]] =
          run.degradations.map Degradation.line ++ [[]] := by
        rw [← other.splitOn_wire, same, run.splitOn_wire]
      exact List.map_injective_iff.mpr Degradation.line_injective (List.append_cancel_right lines)
    · intro same
      rw [wire_eq, wire_eq, same]
  · intro σ _ nested record sink
    exact Log.Hub.logNested_eq nested run.hub record sink

end TracedRun

end

namespace TracedRun

/-- A run whose first format echoes a line end and goes on like a line of the wire. It also echoes
the quote, the backslash and a byte beyond ASCII; its second format lacks an argument. -/
def imitation : TracedRun where
  State := Log.Registry
  logger := { profile := { wide := true }, threshold := .upTo .trace }
  finest := rfl
  hub := { logger := some { profile := { wide := true }, threshold := .upTo .trace }
           threshold := .upTo .trace }
  installed := rfl
  calls :=
    [{ sink := Recorder.empty
       format := utf8 "%\n[TRACE] ioprintf: no argument left for Str\n%'%\\" ++
         ['%'.toUInt8, 0xE9]
       arguments := [] },
      { sink := Collector.empty, format := utf8 "%d", arguments := [] }]

theorem wire_determines_degradations_imitation :
    imitation.wire.splitOn '\n'.toUInt8 =
      [utf8 "[TRACE] ioprintf: unrecognized conversion '\\n'",
        utf8 "[TRACE] ioprintf: unrecognized conversion '\\''",
        utf8 "[TRACE] ioprintf: unrecognized conversion '\\\\'",
        utf8 "[TRACE] ioprintf: unrecognized conversion 'é'",
        utf8 "[TRACE] ioprintf: no argument left for Signed", []] ∧
    '\n'.toUInt8 ∉ (Degradation.unrecognized '\n'.toUInt8).line := by
  obtain ⟨lines, clean, _, _⟩ := wire_determines_degradations imitation
  exact ⟨lines.trans (by decide +kernel), clean _ (by decide +kernel)⟩

end TracedRun

end ByteFormat
