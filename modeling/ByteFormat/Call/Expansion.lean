import ByteFormat.Call.Operand
import ByteFormat.Print

/-! # Expanding calls

A call has a format that is known beforehand and operands for it. Expanding the call finds the
slots of the format, refuses a format that ends inside a directive and then a wrong number of
operands, and pairs every slot with its operand. The line form of a call appends a line end to the
format before anything is checked.
-/

namespace ByteFormat.Call

/-- The forms of a call: to a sink, to a sink with a line end, and into a buffer. -/
inductive Form where
  | plain
  | line
  | buffer
deriving DecidableEq, Repr

/-- The format that a call of the form prints. -/
def Form.complete (form : Form) (format : List UInt8) : List UInt8 :=
  match form with
  | .line => format ++ ['\n'.toUInt8]
  | .plain | .buffer => format

inductive CallError where
  | endsInsideDirective
  | operandCount (required supplied : Nat)
deriving DecidableEq, Repr

def CallError.message : CallError → String
  | .endsInsideDirective => "invalid format string: ends inside a % directive"
  | .operandCount required supplied =>
      "format string required " ++ toString required ++ " arguments but " ++ toString supplied ++
        " were supplied"

/-- An accepted call: the format to print and the operand of every slot. -/
structure Expansion (α : Type) where
  format : List UInt8
  arguments : List (Slot × α)
deriving DecidableEq, Repr

/-- Checks a call and pairs slots with operands. -/
def expand {α : Type} (form : Form) (format : List UInt8) (operands : List α) :
    Except CallError (Expansion α) :=
  match slots? (form.complete format) with
  | none => .error .endsInsideDirective
  | some slots =>
      if operands.length = slots.length then
        .ok { format := form.complete format, arguments := slots.zip operands }
      else .error (.operandCount slots.length operands.length)

namespace Expansion

/-- The arguments of an accepted call, if every operand suits its slot. -/
def wrapped? (expansion : Expansion Operand) : Option (List Argument) :=
  expansion.arguments.mapM fun (slot, operand) => slot.wrap? operand

def print? {σ : Type} [Sink σ] (expansion : Expansion Operand) (profile : Profile) (sink : σ) :
    Option (Printed σ) :=
  expansion.wrapped?.map fun arguments => print profile expansion.format arguments sink

end Expansion

end ByteFormat.Call
