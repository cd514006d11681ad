import ByteFormat.Output.Sink

/-! # Sinks that remember

A collector keeps the bytes it is given. A recorder keeps the calls: single bytes and bursts stay
apart, and an empty burst is a call too.
-/

namespace ByteFormat

/-- All bytes written so far. -/
structure Collector where
  bytes : Array UInt8
deriving DecidableEq, Repr

namespace Collector

def empty : Collector := ⟨#[]⟩

def toList (collector : Collector) : List UInt8 :=
  collector.bytes.toList

instance : Sink Collector where
  write collector byte := ⟨collector.bytes.push byte⟩

@[simp] theorem toList_empty : empty.toList = [] := rfl

@[simp] theorem toList_write (collector : Collector) (byte : UInt8) :
    (Sink.write collector byte).toList = collector.toList ++ [byte] := by
  simp [Sink.write, toList]

@[simp] theorem toList_writeEach (collector : Collector) (bytes : List UInt8) :
    (Sink.writeEach collector bytes).toList = collector.toList ++ bytes := by
  induction bytes generalizing collector with
  | nil => simp
  | cons byte rest ih => simp [ih]

instance : LawfulSink Collector where
  writeBytes_eq _ _ := rfl

end Collector

inductive SinkCall where
  | single (byte : UInt8)
  | burst (bytes : List UInt8)
deriving DecidableEq, Repr

namespace SinkCall

def bytes : SinkCall → List UInt8
  | .single byte => [byte]
  | .burst bytes => bytes

def apply {σ : Type} [Sink σ] (sink : σ) : SinkCall → σ
  | .single byte => Sink.write sink byte
  | .burst bytes => Sink.writeBytes sink bytes

end SinkCall

/-- All calls made so far. -/
structure Recorder where
  calls : Array SinkCall
deriving DecidableEq, Repr

namespace Recorder

def empty : Recorder := ⟨#[]⟩

def toList (recorder : Recorder) : List SinkCall :=
  recorder.calls.toList

/-- The bytes of all calls, bursts flattened. -/
def bytes (recorder : Recorder) : List UInt8 :=
  recorder.toList.flatMap SinkCall.bytes

instance : Sink Recorder where
  write recorder byte := ⟨recorder.calls.push (.single byte)⟩
  writeBytes recorder bytes := ⟨recorder.calls.push (.burst bytes)⟩

@[simp] theorem toList_empty : empty.toList = [] := rfl

@[simp] theorem toList_write (recorder : Recorder) (byte : UInt8) :
    (Sink.write recorder byte).toList = recorder.toList ++ [.single byte] := by
  simp [Sink.write, toList]

@[simp] theorem toList_writeBytes (recorder : Recorder) (bytes : List UInt8) :
    (Sink.writeBytes recorder bytes).toList = recorder.toList ++ [.burst bytes] := by
  simp [Sink.writeBytes, toList]

@[simp] theorem toList_writeEach (recorder : Recorder) (bytes : List UInt8) :
    (Sink.writeEach recorder bytes).toList = recorder.toList ++ bytes.map .single := by
  induction bytes generalizing recorder with
  | nil => simp
  | cons byte rest ih => simp [ih]

end Recorder

end ByteFormat
