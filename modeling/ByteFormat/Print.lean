import ByteFormat.Argument
import ByteFormat.FixedPoint
import ByteFormat.Format.Token
import ByteFormat.Output.Traced

/-! # Printing

Printing walks the tokens of a format and writes to a sink: literal runs and text arguments as
bursts, everything else byte by byte. Nothing fails. A specifier that names no conversion is echoed,
a conversion without an argument writes nothing, and both are reported as degradations at the
directive in question, before anything is written for it. Arguments that no directive takes are
ignored. Plain printing collects the reports, in format order, beside the sink.
-/

namespace ByteFormat

/-- A directive that was not carried out as written. -/
inductive Degradation where
  /-- The specifier byte names no conversion and was echoed. -/
  | unrecognized (byte : UInt8)
  /-- No argument was left for the conversion, and nothing was written. -/
  | unsupplied (conversion : Conversion)
deriving DecidableEq, Repr

/-- The sink after printing and the degradations met on the way. -/
structure Printed (σ : Type) where
  sink : σ
  degradations : List Degradation
deriving DecidableEq, Repr

variable {σ : Type} [Sink σ]

/-- Writes an argument as an integer field. Native and wide words are rendered by calls of their
own. -/
def Directive.writeInteger (directive : Directive) (profile : Profile) (conversion : Conversion)
    (argument : Argument) (sink : σ) : σ :=
  match argument.integer profile directive.length conversion.isSigned with
  | .native magnitude negative =>
      Sink.writeEach sink
        ((Magnitude.word64 magnitude).field conversion.radix negative directive.padding)
  | .wide magnitude negative =>
      Sink.writeEach sink
        ((Magnitude.word64 magnitude).field conversion.radix negative directive.padding)

/-- Writes an argument under a conversion. An address has a marker in front of its digits and fixes
the shape of its field. -/
def Directive.write (directive : Directive) (profile : Profile) (conversion : Conversion)
    (argument : Argument) (sink : σ) : σ :=
  match conversion with
  | .char => Sink.write sink argument.byte
  | .text => Sink.writeBytes sink argument.string
  | .float =>
      Sink.writeEach sink
        (FixedPoint.field argument.toBinary64 directive.precision directive.padding)
  | .pointer =>
      directive.pointer.writeInteger profile conversion argument
        (Sink.write (Sink.write sink '0'.toUInt8) 'x'.toUInt8)
  | .signed | .unsigned | .hex | .binary =>
      directive.writeInteger profile conversion argument sink

/-- Prints tokens with the arguments that are left, in a state that takes output and reports. -/
def traceTokens (report : σ → Degradation → σ) (profile : Profile) :
    List Token → List Argument → σ → σ
  | [], _, state => state
  | .literal bytes :: rest, arguments, state =>
      traceTokens report profile rest arguments (Sink.writeBytes state bytes)
  | .directive directive :: rest, arguments, state =>
      match directive.specifier, arguments with
      | .echo byte, arguments =>
          traceTokens report profile rest arguments
            (Sink.write (report state (.unrecognized byte)) byte)
      | .convert conversion, [] =>
          traceTokens report profile rest [] (report state (.unsupplied conversion))
      | .convert conversion, argument :: arguments =>
          traceTokens report profile rest arguments
            (directive.write profile conversion argument state)

/-- Prints tokens and collects the reports. -/
def printTokens (profile : Profile) (list : List Token) (arguments : List Argument) (sink : σ) :
    Printed σ :=
  let traced := traceTokens (Traced.handIn fun reports degradation => reports ++ [degradation])
    profile list arguments { sink, log := [] }
  { sink := traced.sink, degradations := traced.log }

/-- Prints a format with its arguments. -/
def print (profile : Profile) (format : List UInt8) (arguments : List Argument) (sink : σ) :
    Printed σ :=
  printTokens profile (tokens format) arguments sink

end ByteFormat
