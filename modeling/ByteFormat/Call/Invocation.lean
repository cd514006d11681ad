import ByteFormat.Call.Expansion
import ByteFormat.Call.Parsers

/-! # Written calls

A call is written as the sink, a comma, the format as a text literal, and then the operands,
separated by commas. The comma after the format may be left out, and one may stand after the last
operand.
-/

namespace ByteFormat.Call

structure Invocation where
  sink : Term
  format : String
  operands : List Term
deriving DecidableEq, Repr

namespace Invocation

variable {ε : Type} (parsers : Parsers ε)

/-- Reads the format and, unless the lexemes end there, the operands behind it. -/
def readInput : Parser ε (String × List Term) := fun lexemes => do
  let (format, rest) ← parsers.text lexemes
  if parsers.isEmpty rest then
    return ((format, []), rest)
  else
    let (_, rest) ← parsers.comma? rest
    let (operands, rest) ← parsers.expressions rest
    return ((format, operands), rest)

def read : Parser ε Invocation := fun lexemes => do
  let (sink, rest) ← parsers.expression lexemes
  let (_, rest) ← parsers.comma rest
  let ((format, operands), rest) ← readInput parsers rest
  return ({ sink, format, operands }, rest)

end Invocation

/-- Why a written call is refused: it cannot be read, or its operands do not fit its format. -/
inductive Refusal where
  | unreadable (error : SyntaxError)
  | unfit (error : CallError)
deriving DecidableEq, Repr

def Refusal.message : Refusal → String
  | .unreadable error => error.message
  | .unfit error => error.message

def expandWritten (form : Form) (lexemes : List Lexeme) :
    Except Refusal (Term × Expansion Term) :=
  match Invocation.read .plain lexemes with
  | .error error => .error (.unreadable error)
  -- A call that is read leaves nothing of the lexemes over.
  | .ok (invocation, _) =>
      match expand form (utf8 invocation.format) invocation.operands with
      | .error error => .error (.unfit error)
      | .ok expansion => .ok (invocation.sink, expansion)

end ByteFormat.Call
