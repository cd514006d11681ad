import ByteFormat.Output.Reference
import ByteFormat.Output.Stream
import ByteFormat.Print

/-! # Sessions on a stream

A session is a sequence of steps on a stream. Some use the stream's own operations, some use the
stream as a sink, and some reach through it to the device, to which they hold a reference; they
differ in how bursts arrive at the device.
-/

namespace ByteFormat

inductive Step where
  /-- Prints on the stream's device. -/
  | print (format : List UInt8) (arguments : List Argument)
  /-- Prints, writes a byte and a burst, and prints again, as one chain of stream operations. -/
  | chain (format : List UInt8) (arguments : List Argument) (byte : UInt8) (bytes : List UInt8)
  /-- Prints on the stream seen as a sink. -/
  | printThrough (format : List UInt8) (arguments : List Argument)
  /-- Prints on a reference to the device. -/
  | printBelow (format : List UInt8) (arguments : List Argument)
  /-- Writes a byte to the stream's device. -/
  | write (byte : UInt8)
  /-- Writes a burst to the stream's device. -/
  | writeBytes (bytes : List UInt8)
  /-- Writes a burst to the stream seen as a sink. -/
  | writeBytesThrough (bytes : List UInt8)
  /-- Writes a text to the stream seen as a sink, which is lent to a text writer. -/
  | writeTextThrough (text : String)
  /-- Writes a text to the device, which is lent to a text writer. -/
  | writeTextBelow (text : String)
  /-- Clears the innermost device. -/
  | clear
deriving DecidableEq

namespace Stream

variable {δ : Type} [Sink δ]

def print (profile : Profile) (format : List UInt8) (arguments : List Argument)
    (stream : Stream δ) : Printed (Stream δ) :=
  let printed := ByteFormat.print profile format arguments stream.device
  { sink := ⟨printed.sink⟩, degradations := printed.degradations }

/-- Prints on a reference to the stream's device. -/
def printBelow (profile : Profile) (format : List UInt8) (arguments : List Argument)
    (stream : Stream δ) : Printed (Stream δ) :=
  let printed := ByteFormat.print profile format arguments (Reference.mk stream.device)
  { sink := ⟨printed.sink.target⟩, degradations := printed.degradations }

def write (byte : UInt8) (stream : Stream δ) : Stream δ :=
  ⟨Sink.write stream.device byte⟩

def writeBytes (bytes : List UInt8) (stream : Stream δ) : Stream δ :=
  ⟨Sink.writeBytes stream.device bytes⟩

end Stream

def Step.run {δ : Type} [Device δ] (profile : Profile) (stream : Stream δ) :
    Step → Printed (Stream δ)
  | .print format arguments => stream.print profile format arguments
  | .chain format arguments byte bytes =>
      let first := stream.print profile format arguments
      let second := ((first.sink.write byte).writeBytes bytes).print profile format arguments
      { second with degradations := first.degradations ++ second.degradations }
  | .printThrough format arguments => ByteFormat.print profile format arguments stream
  | .printBelow format arguments => stream.printBelow profile format arguments
  | .write byte => { sink := stream.write byte, degradations := [] }
  | .writeBytes bytes => { sink := stream.writeBytes bytes, degradations := [] }
  | .writeBytesThrough bytes => { sink := Sink.writeBytes stream bytes, degradations := [] }
  | .writeTextThrough text => { sink := Reference.writeText stream text, degradations := [] }
  | .writeTextBelow text =>
      { sink := ⟨Reference.writeText stream.device text⟩, degradations := [] }
  | .clear => { sink := Device.clear stream, degradations := [] }

/-- Carries out steps one after the other and returns what each of them left. -/
def Step.runAll {δ : Type} [Device δ] (profile : Profile) (stream : Stream δ) :
    List Step → List (Printed (Stream δ))
  | [] => []
  | step :: rest =>
      let printed := step.run profile stream
      printed :: runAll profile printed.sink rest

def Step.final {δ : Type} [Device δ] (profile : Profile) (stream : Stream δ) :
    List Step → Stream δ
  | [] => stream
  | step :: rest => final profile (step.run profile stream).sink rest

end ByteFormat
