import ByteFormat.Log.Logger
import ByteFormat.Proofs.Log.Tracing

/-! # The lines of a logger

A logger writes each record that its threshold admits as one line. The head of the line is printed,
with the target as an argument, and the message is written as it is; so neither is read as a format,
and on a sink that takes bursts as their bytes it makes no difference in how many pieces the message
arrives. The lines of several records follow each other in order
(`logger_writes_admitted_lines`).
-/

namespace ByteFormat.Log

/-- A text writer leaves its sink as if the pieces were written one after the other, byte by byte.
-/
private theorem foldl_write {σ : Type} [Sink σ] [LawfulSink σ] (pieces : List String) (sink : σ) :
    (pieces.foldl TextWriter.write { sink := Reference.mk sink }).sink.target =
      Sink.writeEach sink (utf8 (String.join pieces)) := by
  induction pieces generalizing sink with
  | nil => rfl
  | cons piece rest ih =>
    rw [String.join_cons, utf8_append, Sink.writeEach_append,
      ← LawfulSink.writeBytes_eq sink (utf8 piece)]
    exact ih (Sink.writeBytes sink (utf8 piece))

section

variable [Conventions]

/-- Only capital letters stand in the names of levels. -/
theorem Level.notMem_utf8_name {char : Char} (ascii : char.toNat < 128)
    (other : ¬ char.isUpper = true) (level : Level) : char.toUInt8 ∉ utf8 level.name :=
  fun member => other (List.all_eq_true.mp (Conventions.isUpper_word level) char
    (mem_of_mem_utf8 ascii member))

/-- The line of a record, without its end. -/
def Record.line (record : Record) : List UInt8 :=
  utf8 "[" ++ utf8 record.level.name ++ utf8 "] " ++ untilNul (utf8 record.target) ++ utf8 ": " ++
    utf8 record.message

namespace Logger

variable {σ : Type} [Sink σ]

def logAll (logger : Logger) (records : List Record) (sink : σ) : σ :=
  records.foldl (fun sink record => logger.log record sink) sink

def logEntries (logger : Logger) (entries : List Entry) (sink : σ) : σ :=
  entries.foldl (fun sink entry => logger.logEntry entry sink) sink

private theorem due_head (record : Record) :
    due (tokens head) (headArguments record).length = [] := by
  have count : (headArguments record).length = 2 := rfl
  rw [count, due_eq_nil_iff, tokens_head]
  decide

/-- What would be done with records from the head makes no difference. -/
theorem logEntryNested_eq (nested : σ → Record → σ) (logger : Logger) (entry : Entry) (sink : σ) :
    logger.logEntryNested nested entry sink = logger.logEntry entry sink := by
  simp only [logEntry, logEntryNested, trace_of_due_eq_nil _ logger.profile (due_head entry.record)]

private theorem untilNul_name (level : Level) : untilNul (utf8 level.name) = utf8 level.name :=
  untilNul_of_notMem (@Level.notMem_utf8_name _ '\x00' (by decide) (by decide) level)

/-- The printed head and the message make up the line of a record. -/
theorem printBytes_head (profile : Profile) (record : Record) :
    printBytes profile head (headArguments record) ++ utf8 record.message = record.line := by
  rw [printBytes_eq_plan, tokens_head, Record.line]
  simp [headArguments, plan, Action.bytes, Serving.bytes, Argument.string, untilNul_name]

private theorem log_of_not_enabled {logger : Logger} {record : Record}
    (refused : ¬ logger.enabled record = true) (sink : σ) : logger.log record sink = sink := by
  rw [log, logEntry, logEntryNested, Record.record_entry, if_neg refused]

variable [LawfulSink σ]

/-- An entry that passes is written as one line, in however many pieces its message arrives. -/
private theorem logEntry_of_enabled {logger : Logger} {entry : Entry}
    (passes : logger.enabled entry.record = true) (sink : σ) :
    logger.logEntry entry sink = Sink.writeEach sink (entry.record.line ++ ['\n'.toUInt8]) := by
  have message (headed : σ) :
      (Sink.write (entry.pieces.foldl TextWriter.write { sink := Reference.mk headed }).sink
        '\n'.toUInt8).target =
      Sink.writeEach headed (utf8 entry.record.message ++ ['\n'.toUInt8]) := by
    rw [Sink.writeEach_append]
    exact congrArg (Sink.write · '\n'.toUInt8) (foldl_write entry.pieces headed)
  rw [logEntry, logEntryNested, if_pos passes,
    trace_of_due_eq_nil _ logger.profile (due_head entry.record), print_sink_lawful, message,
    ← Sink.writeEach_append, ← printBytes_head, List.append_assoc]

/-- In how many pieces a message arrives makes no difference. -/
theorem logEntry_eq (logger : Logger) (entry : Entry) (sink : σ) :
    logger.logEntry entry sink = logger.log entry.record sink := by
  by_cases passes : logger.enabled entry.record = true
  · rw [log, logEntry_of_enabled passes, logEntry_of_enabled (by rwa [Record.record_entry]),
      Record.record_entry]
  · rw [log_of_not_enabled passes, logEntry, logEntryNested, if_neg passes]

private theorem log_of_enabled {logger : Logger} {record : Record}
    (passes : logger.enabled record = true) (sink : σ) :
    logger.log record sink = Sink.writeEach sink (record.line ++ ['\n'.toUInt8]) := by
  rw [log, logEntry_of_enabled (by rwa [Record.record_entry]), Record.record_entry]

/-- A record that passes is one line on the wire. -/
theorem toList_log {logger : Logger} {record : Record} (passes : logger.enabled record = true)
    (wire : Collector) :
    (logger.log record wire).toList = wire.toList ++ (record.line ++ ['\n'.toUInt8]) := by
  rw [log_of_enabled passes, Collector.toList_writeEach]

/-- Records are written as the lines of those that pass, in their order. -/
theorem logAll_eq (logger : Logger) (records : List Record) (sink : σ) :
    logger.logAll records sink =
      Sink.writeEach sink
        ((records.filter fun record => record.level.rank ≤ logger.threshold.rank).flatMap
          fun record => record.line ++ ['\n'.toUInt8]) := by
  induction records generalizing sink with
  | nil => rfl
  | cons record rest ih =>
    have step : logger.logAll (record :: rest) sink = logger.logAll rest (logger.log record sink) :=
      rfl
    have passes : logger.enabled record = decide (record.level.rank ≤ logger.threshold.rank) :=
      Conventions.passes_eq logger.threshold record.level
    rw [step, ih]
    by_cases admitted : record.level.rank ≤ logger.threshold.rank
    · rw [log_of_enabled (passes.trans (decide_eq_true admitted)),
        List.filter_cons_of_pos (by simpa using admitted), List.flatMap_cons,
        Sink.writeEach_append sink (record.line ++ ['\n'.toUInt8])]
    · have refused : ¬ logger.enabled record = true := by simpa [passes] using admitted
      rw [log_of_not_enabled refused, List.filter_cons_of_neg (by simpa using admitted)]

theorem logEntries_eq (logger : Logger) (entries : List Entry) (sink : σ) :
    logger.logEntries entries sink = logger.logAll (entries.map Entry.record) sink := by
  rw [logEntries, logAll, List.foldl_map]
  congr 1
  funext sink entry
  exact logger.logEntry_eq entry sink

/-- A logger writes the lines of the records that it admits. On every sink that takes bursts as
their bytes, the output of a list of records consists of one line for each record whose level is not
beyond the threshold, in order: the level in brackets, the target up to its first zero byte, and the
message as it is, in however many pieces it arrives. Hence a stricter logger writes what a laxer one
writes for the records that the stricter one admits. -/
theorem logger_writes_admitted_lines (logger : Logger) (records : List Record) (sink : σ) :
    (logger.logAll records sink =
      Sink.writeEach sink
        ((records.filter fun record => record.level.rank ≤ logger.threshold.rank).flatMap
          fun record =>
            utf8 "[" ++ utf8 record.level.name ++ utf8 "] " ++ untilNul (utf8 record.target) ++
              utf8 ": " ++ utf8 record.message ++ utf8 "\n")) ∧
    (∀ entries : List Entry, entries.map Entry.record = records →
      logger.logEntries entries sink = logger.logAll records sink) ∧
    ∀ laxer : Logger, logger.threshold.rank ≤ laxer.threshold.rank →
      logger.logAll records sink =
        laxer.logAll
          (records.filter fun record => record.level.rank ≤ logger.threshold.rank) sink := by
  refine ⟨logger.logAll_eq records sink, ?_, ?_⟩
  · rintro entries rfl
    exact logger.logEntries_eq entries sink
  · intro laxer wider
    -- The laxer logger admits all that the stricter one does, so it drops no more.
    have admitted : (records.filter fun record => record.level.rank ≤ logger.threshold.rank).filter
        (fun record => record.level.rank ≤ laxer.threshold.rank) =
          records.filter fun record => record.level.rank ≤ logger.threshold.rank := by
      apply List.filter_eq_self.mpr
      intro record member
      have strict := of_decide_eq_true (List.mem_filter.mp member).2
      exact decide_eq_true (Nat.le_trans strict wider)
    rw [logAll_eq, logAll_eq, admitted]

end Logger

end

/-- A target and a message that look like formats, with zero bytes and line ends in them, are one
record of two; the other one is too fine for the threshold. -/
theorem Logger.logger_writes_admitted_lines_hostile :
    (Logger.logEntries { profile := { wide := true }, threshold := .upTo .warn }
        [{ level := .warn, target := "ad%s\x00c", pieces := ["%d\n", "", "\x00%"] },
          { level := .debug, target := "adc", pieces := ["noise"] }] Collector.empty).toList =
      utf8 "[WARN] ad%s: %d\n\x00%\n" ∧
    (Logger.logAll { profile := { wide := true }, threshold := .upTo .warn }
        [{ level := .warn, target := "ad%s\x00c", message := "%d\n\x00%" },
          { level := .debug, target := "adc", message := "noise" }] Collector.empty) =
      Logger.logAll { profile := { wide := false }, threshold := .upTo .trace }
        [{ level := .warn, target := "ad%s\x00c", message := "%d\n\x00%" }] Collector.empty := by
  obtain ⟨lines, pieces, filtered⟩ :=
    logger_writes_admitted_lines { profile := { wide := true }, threshold := .upTo .warn }
      [{ level := .warn, target := "ad%s\x00c", message := "%d\n\x00%" },
        { level := .debug, target := "adc", message := "noise" }] Collector.empty
  refine ⟨?_, filtered { profile := { wide := false }, threshold := .upTo .trace } (by decide)⟩
  rw [pieces _ (by decide +kernel), lines, Collector.toList_writeEach]
  decide +kernel

end ByteFormat.Log
