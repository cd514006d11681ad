import ByteFormat.Log.Record
import ByteFormat.Output.Reference

/-! # Logging to a byte sink

A logger writes each record that passes its threshold as one line on a byte sink: the level in
brackets, the target, and the message. The head of the line is printed like any other format, so
the target ends at its first zero byte; the message is written as it is, in the pieces in which it
is handed over, by a text writer to which the sink is lent.
-/

namespace ByteFormat.Log

structure Logger where
  profile : Profile
  threshold : Threshold
deriving DecidableEq, Repr

namespace Logger

def head : List UInt8 :=
  utf8 "[%s] %s: "

/-- The head consists of two text conversions between literal runs. -/
theorem tokens_head :
    tokens head =
      [.literal (utf8 "["), .directive { specifier := .convert .text }, .literal (utf8 "] "),
        .directive { specifier := .convert .text }, .literal (utf8 ": ")] := by
  decide +kernel

variable [Conventions]

def headArguments (record : Record) : List Argument :=
  [.text { bytes := utf8 record.level.name, address := 0 },
    .text { bytes := utf8 record.target, address := 0 }]

def enabled (logger : Logger) (record : Record) : Bool :=
  logger.threshold.admits record.level

variable {σ : Type} [Sink σ]

/-- Writes the line of an entry that passes. Records that printing its head gives rise to are handed
in at once. -/
def logEntryNested (nested : σ → Record → σ) (logger : Logger) (entry : Entry) (sink : σ) : σ :=
  if logger.enabled entry.record then
    let headed := trace nested logger.profile head (headArguments entry.record) sink
    let writer := entry.pieces.foldl TextWriter.write { sink := Reference.mk headed }
    (Sink.write writer.sink '\n'.toUInt8).target
  else sink

/-- Writes the line of an entry, and drops what printing its head gives rise to. -/
def logEntry (logger : Logger) (entry : Entry) (sink : σ) : σ :=
  logger.logEntryNested (fun sink _ => sink) entry sink

def logNested (nested : σ → Record → σ) (logger : Logger) (record : Record) (sink : σ) : σ :=
  logger.logEntryNested nested record.entry sink

def log (logger : Logger) (record : Record) (sink : σ) : σ :=
  logger.logEntry record.entry sink

end Logger

end ByteFormat.Log
