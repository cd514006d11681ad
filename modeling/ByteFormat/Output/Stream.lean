import ByteFormat.Output.Buffer
import ByteFormat.Output.Recorder

/-! # Streams over devices

A stream sits on a device. Its own operations use the device directly, bursts included. Seen as a
sink, a stream knows single bytes only, so a burst written to it reaches the device byte by byte,
and an empty burst does not reach it at all. A stream is itself a device, so streams can be nested.
-/

namespace ByteFormat

/-- A sink whose record of past output can be cleared. -/
class Device (δ : Type) extends Sink δ where
  /-- Forgets past output. -/
  clear : δ → δ

instance : Device Recorder where
  clear _ := .empty

instance {capacity : Nat} : Device (Buffer capacity) where
  clear := Buffer.clear

structure Stream (δ : Type) where
  device : δ
deriving DecidableEq, Repr

namespace Stream

variable {δ : Type}

instance [Sink δ] : Sink (Stream δ) where
  write stream byte := ⟨Sink.write stream.device byte⟩

instance [Sink δ] : LawfulSink (Stream δ) where
  writeBytes_eq _ _ := rfl

instance [Device δ] : Device (Stream δ) where
  clear stream := ⟨Device.clear stream.device⟩

@[simp] theorem writeEach_device [Sink δ] (stream : Stream δ) (bytes : List UInt8) :
    (Sink.writeEach stream bytes).device = Sink.writeEach stream.device bytes := by
  induction bytes generalizing stream with
  | nil => rfl
  | cons byte rest ih => exact ih _

end Stream

end ByteFormat
