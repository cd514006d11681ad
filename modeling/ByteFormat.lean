import ByteFormat.Argument
import ByteFormat.Binary64.Arithmetic
import ByteFormat.Binary64.Basic
import ByteFormat.Binary64.Bits
import ByteFormat.Binary64.Rounding
import ByteFormat.Bytes
import ByteFormat.Call.Expansion
import ByteFormat.Call.Invocation
import ByteFormat.Call.Operand
import ByteFormat.Call.Parsers
import ByteFormat.Call.Slot
import ByteFormat.FixedPoint
import ByteFormat.Format.Cursor
import ByteFormat.Format.Directive
import ByteFormat.Format.Token
import ByteFormat.Log.Hub
import ByteFormat.Log.Logger
import ByteFormat.Log.Record
import ByteFormat.Numeral.Field
import ByteFormat.Numeral.Magnitude
import ByteFormat.Output.Buffer
import ByteFormat.Output.Recorder
import ByteFormat.Output.Reference
import ByteFormat.Output.Sink
import ByteFormat.Output.Stream
import ByteFormat.Output.Traced
import ByteFormat.Print
import ByteFormat.Proofs.Binary64.Arithmetic
import ByteFormat.Proofs.Binary64.Rounding
import ByteFormat.Proofs.Call.Agreement
import ByteFormat.Proofs.Call.ByType
import ByteFormat.Proofs.Call.Delivery
import ByteFormat.Proofs.Call.Grammar
import ByteFormat.Proofs.Call.Line
import ByteFormat.Proofs.Call.Wrapping
import ByteFormat.Proofs.FixedPoint.Accuracy
import ByteFormat.Proofs.FixedPoint.Cut
import ByteFormat.Proofs.FixedPoint.Layout
import ByteFormat.Proofs.FixedPoint.WholeNumber
import ByteFormat.Proofs.Format.Bytewise
import ByteFormat.Proofs.Format.Canonical
import ByteFormat.Proofs.Format.Position
import ByteFormat.Proofs.Format.Run
import ByteFormat.Proofs.Format.Spelling
import ByteFormat.Proofs.Format.Tiling
import ByteFormat.Proofs.Log.Lines
import ByteFormat.Proofs.Log.Tracing
import ByteFormat.Proofs.Log.Wire
import ByteFormat.Proofs.Narrowing
import ByteFormat.Proofs.Numeral.Checked
import ByteFormat.Proofs.Numeral.Layout
import ByteFormat.Proofs.Numeral.Reading
import ByteFormat.Proofs.Output.Window
import ByteFormat.Proofs.Print.Addresses
import ByteFormat.Proofs.Print.Calls
import ByteFormat.Proofs.Print.Composition
import ByteFormat.Proofs.Print.Decimals
import ByteFormat.Proofs.Print.Escaped
import ByteFormat.Proofs.Print.Integers
import ByteFormat.Proofs.Print.Plan
import ByteFormat.Proofs.Print.Words
import ByteFormat.Proofs.Print.Zeros
import ByteFormat.Proofs.Quoted.Reading
import ByteFormat.Proofs.Session.Buffered
import ByteFormat.Proofs.Session.Layers
import ByteFormat.Quoted
import ByteFormat.Quoted.Hidden
import ByteFormat.Session
