import ByteFormat.Log.Logger
import ByteFormat.Output.Recorder

/-! # The common log

A program hands its records in to a common log. A logger can be put in place there once, and a
threshold for all records can be set at any time; a record then reaches the logger or nobody. `Hub`
names what is used of such a log and `LawfulHub` what is relied on. A registry of one logger and one
threshold is a log of this kind.
-/

namespace ByteFormat.Log

inductive InstallError where
  | alreadyInstalled
deriving DecidableEq, Repr

def InstallError.message : InstallError → String
  | .alreadyInstalled =>
      "attempted to set a logger after the logging system was already initialized"

/-- A common log. -/
class Hub (γ : Type) where
  /-- The log when a program starts. -/
  idle : γ
  setLogger : γ → Logger → Except InstallError γ
  setThreshold : γ → Threshold → γ
  /-- The logger that records of a level reach. -/
  reached? : γ → Level → Option Logger

/-- A log in which the logger that was put in place first is reached by the levels that the
threshold set last admits. -/
class LawfulHub [Conventions] (γ : Type) [Hub γ] : Prop where
  reached?_of_set {hub : γ} {logger : Logger}
    (put : Hub.setLogger Hub.idle logger = .ok hub) (threshold : Threshold) (level : Level) :
    Hub.reached? (Hub.setThreshold hub threshold) level =
      if threshold.admits level then some logger else none

namespace Hub

variable {γ : Type} [Hub γ]

/-- Puts a logger in place and makes its threshold the common one. -/
def install (hub : γ) (logger : Logger) : Except InstallError γ :=
  (setLogger hub logger).map fun hub => setThreshold hub logger.threshold

theorem install_eq_ok {hub installed : γ} {logger : Logger}
    (done : install hub logger = .ok installed) :
    ∃ put, setLogger hub logger = .ok put ∧ installed = setThreshold put logger.threshold := by
  unfold install at done
  cases put : setLogger hub logger with
  | error error =>
    rw [put] at done
    cases done
  | ok first =>
    rw [put] at done
    cases done
    exact ⟨first, rfl, rfl⟩

variable [Conventions] {σ : Type} [Sink σ]

/-- Hands in a record. Those that logging it gives rise to are handed in at once. -/
def logNested (nested : σ → Record → σ) (hub : γ) (record : Record) (sink : σ) : σ :=
  match reached? hub record.level with
  | none => sink
  | some logger => logger.logNested nested record sink

/-- Hands in a record, and drops those that logging it gives rise to. -/
def log (hub : γ) (record : Record) (sink : σ) : σ :=
  logNested (fun sink _ => sink) hub record sink

/-- Hands in the records of degradations, in order. -/
def report (hub : γ) (degradations : List Degradation) (sink : σ) : σ :=
  degradations.foldl (fun sink degradation => log hub degradation.record sink) sink

/-- The bytes that degradations put on the wire. -/
def wire (hub : γ) (degradations : List Degradation) : List UInt8 :=
  (report hub degradations Collector.empty).toList

end Hub

structure Registry where
  logger : Option Logger
  threshold : Threshold
deriving DecidableEq, Repr

instance [Conventions] : Hub Registry where
  idle := { logger := none, threshold := .off }
  setLogger registry logger :=
    match registry.logger with
    | some _ => .error .alreadyInstalled
    | none => .ok { registry with logger := some logger }
  setThreshold registry threshold := { registry with threshold }
  reached? registry level := if registry.threshold.admits level then registry.logger else none

instance [Conventions] : LawfulHub Registry where
  reached?_of_set := by
    rintro _ logger ⟨⟩ threshold level
    rfl

end ByteFormat.Log
