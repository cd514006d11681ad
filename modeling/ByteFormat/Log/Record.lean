import ByteFormat.Print
import ByteFormat.Quoted

/-! # Log records

A record has a level, a target and a message. A threshold admits the levels up to a limit, from the
gravest on, or none at all. Degradations met in printing are recorded at the finest level, each at
its directive and before anything is written for it (`trace`).

How levels compare with thresholds and what they are called is settled by the common log, of which
`Conventions` states what is relied on here.
-/

namespace ByteFormat.Log

/-- Levels, gravest first. -/
inductive Level where
  | error
  | warn
  | info
  | debug
  | trace
deriving DecidableEq, Repr

/-- Position of a level, counted from the gravest. -/
def Level.rank : Level → Nat
  | .error => 1
  | .warn => 2
  | .info => 3
  | .debug => 4
  | .trace => 5

/-- The finest level that is admitted, if any is. -/
inductive Threshold where
  | off
  | upTo (level : Level)
deriving DecidableEq, Repr

/-- Position of the finest level that is admitted. -/
def Threshold.rank : Threshold → Nat
  | .off => 0
  | .upTo level => level.rank

/-- The conventions of the common log: whether records of a level pass a threshold, and how a level
is written. -/
class Conventions where
  passes : Threshold → Level → Bool
  word : Level → String
  /-- A threshold lets pass the levels up to its own position. -/
  passes_eq (threshold : Threshold) (level : Level) :
    passes threshold level = decide (level.rank ≤ threshold.rank)
  /-- The words for levels consist of capital letters. -/
  isUpper_word (level : Level) : (word level).toList.all Char.isUpper = true

def Level.standardWord : Level → String
  | .error => "ERROR"
  | .warn => "WARN"
  | .info => "INFO"
  | .debug => "DEBUG"
  | .trace => "TRACE"

instance : Conventions where
  passes threshold level := level.rank ≤ threshold.rank
  word := Level.standardWord
  passes_eq _ _ := rfl
  isUpper_word level := by cases level <;> decide

section

variable [Conventions]

def Level.name (level : Level) : String :=
  Conventions.word level

def Threshold.name : Threshold → String
  | .off => "OFF"
  | .upTo level => level.name

def Threshold.admits (threshold : Threshold) (level : Level) : Bool :=
  Conventions.passes threshold level

end

structure Record where
  level : Level
  target : String
  message : String
deriving DecidableEq, Repr

/-- A record whose message is handed over in pieces. -/
structure Entry where
  level : Level
  target : String
  pieces : List String
deriving DecidableEq, Repr

def Entry.record (entry : Entry) : Record :=
  { level := entry.level, target := entry.target, message := String.join entry.pieces }

/-- A record as an entry of one piece. -/
def Record.entry (record : Record) : Entry :=
  { level := record.level, target := record.target, pieces := [record.message] }

@[simp] theorem Record.record_entry (record : Record) : record.entry.record = record := by
  simp [Record.entry, Entry.record]

end ByteFormat.Log

namespace ByteFormat

namespace Degradation

def message : Degradation → String
  | .unrecognized byte =>
      "unrecognized conversion " ++ Quoted.char (Char.ofNat byte.toNat)
  | .unsupplied conversion => "no argument left for " ++ conversion.name

theorem message_unrecognized (byte : UInt8) :
    message (.unrecognized byte) =
      "unrecognized conversion " ++ Quoted.char (Char.ofNat byte.toNat) := rfl

theorem message_unsupplied (conversion : Conversion) :
    message (.unsupplied conversion) = "no argument left for " ++ conversion.name := rfl

def record (degradation : Degradation) : Log.Record :=
  { level := .trace, target := "ioprintf", message := degradation.message }

end Degradation

/-- Prints a format and hands in the record of a degradation at its directive. -/
def trace {σ : Type} [Sink σ] (handIn : σ → Log.Record → σ) (profile : Profile)
    (format : List UInt8) (arguments : List Argument) (state : σ) : σ :=
  traceTokens (fun state degradation => handIn state degradation.record) profile (tokens format)
    arguments state

end ByteFormat
