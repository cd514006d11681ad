import ByteFormat.Bytes

/-! # Sinks

A sink takes bytes one at a time or in bursts. What happens to them, whether they are stored,
dropped or passed on, is the sink's own affair, and whoever writes never observes it. A sink that
says nothing about bursts takes them byte by byte.
-/

namespace ByteFormat

/-- A state that takes bytes. -/
class Sink (σ : Type) where
  /-- Takes one byte. -/
  write : σ → UInt8 → σ
  /-- Takes a burst of bytes. -/
  writeBytes : σ → List UInt8 → σ := fun sink bytes => bytes.foldl write sink

namespace Sink

variable {σ : Type} [Sink σ]

def writeEach (sink : σ) (bytes : List UInt8) : σ :=
  bytes.foldl write sink

@[simp] theorem writeEach_nil (sink : σ) : writeEach sink [] = sink := rfl

@[simp] theorem writeEach_cons (sink : σ) (byte : UInt8) (rest : List UInt8) :
    writeEach sink (byte :: rest) = writeEach (write sink byte) rest := rfl

@[simp] theorem writeEach_append (sink : σ) (first second : List UInt8) :
    writeEach sink (first ++ second) = writeEach (writeEach sink first) second :=
  List.foldl_append

end Sink

/-- A sink for which a burst is nothing but its bytes. -/
class LawfulSink (σ : Type) [Sink σ] : Prop where
  writeBytes_eq (sink : σ) (bytes : List UInt8) :
    Sink.writeBytes sink bytes = Sink.writeEach sink bytes

/-- A map between sinks under which each call becomes the same call. -/
structure KeepsCalls {σ τ : Type} [Sink σ] [Sink τ] (map : σ → τ) : Prop where
  write (sink : σ) (byte : UInt8) : map (Sink.write sink byte) = Sink.write (map sink) byte
  writeBytes (sink : σ) (bytes : List UInt8) :
    map (Sink.writeBytes sink bytes) = Sink.writeBytes (map sink) bytes

theorem KeepsCalls.writeEach {σ τ : Type} [Sink σ] [Sink τ] {map : σ → τ} (keeps : KeepsCalls map)
    (sink : σ) (bytes : List UInt8) :
    map (Sink.writeEach sink bytes) = Sink.writeEach (map sink) bytes := by
  induction bytes generalizing sink with
  | nil => rfl
  | cons byte rest ih => rw [Sink.writeEach_cons, ih, keeps.write, Sink.writeEach_cons]

end ByteFormat
