import ByteFormat.Output.Sink

/-! # Lending a sink

A sink can be lent to a writer, which then holds a reference to it. What is written to the reference
is passed on as it comes, single bytes as single bytes and bursts as bursts. A text writer takes
texts and hands each of them to its sink as one burst.
-/

namespace ByteFormat

/-- A reference to a sink, with the sink as it has become. -/
structure Reference (σ : Type) where
  target : σ
deriving DecidableEq, Repr

namespace Reference

variable {σ : Type} [Sink σ]

instance : Sink (Reference σ) where
  write reference byte := ⟨Sink.write reference.target byte⟩
  writeBytes reference bytes := ⟨Sink.writeBytes reference.target bytes⟩

/-- The calls on a reference are made on its target. -/
theorem keepsCalls_target : KeepsCalls (@target σ) where
  write _ _ := rfl
  writeBytes _ _ := rfl

end Reference

structure TextWriter (σ : Type) where
  sink : σ
deriving DecidableEq, Repr

/-- Writes a text as one burst of its UTF-8 bytes. -/
def TextWriter.write {σ : Type} [Sink σ] (writer : TextWriter σ) (text : String) : TextWriter σ :=
  ⟨Sink.writeBytes writer.sink (utf8 text)⟩

/-- Writes a text to a sink that is lent to a text writer. -/
def Reference.writeText {σ : Type} [Sink σ] (sink : σ) (text : String) : σ :=
  ((TextWriter.mk (Reference.mk sink)).write text).sink.target

end ByteFormat
