import ByteFormat.Output.Sink

/-! # Output with a log beside it

Where output and log are kept apart, bytes go to the output and entries to the log. As a sink, such
a state is its output; the log is left alone by everything that is written.
-/

namespace ByteFormat

structure Traced (σ ω : Type) where
  sink : σ
  log : ω
deriving DecidableEq, Repr

namespace Traced

variable {σ ω : Type}

instance [Sink σ] : Sink (Traced σ ω) where
  write state byte := { state with sink := Sink.write state.sink byte }
  writeBytes state bytes := { state with sink := Sink.writeBytes state.sink bytes }

def handIn {ρ : Type} (keep : ω → ρ → ω) (state : Traced σ ω) (entry : ρ) : Traced σ ω :=
  { state with log := keep state.log entry }

/-- Whatever the log holds, the calls are those on the output. -/
theorem keepsCalls_mk [Sink σ] (log : ω) : KeepsCalls fun sink : σ => Traced.mk sink log where
  write _ _ := rfl
  writeBytes _ _ := rfl

end Traced

end ByteFormat
