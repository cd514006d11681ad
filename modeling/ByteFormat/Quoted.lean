import ByteFormat.Quoted.Hidden

/-! # Quoted characters and texts

Characters and texts are quoted for a reader: tabs and line ends, the backslash and the quote in
use are written with a backslash, and characters that do not show are written by their code in
lower-case hexadecimal.
-/

namespace ByteFormat.Quoted

/-- A character inside the given quotes. -/
def escape (quote char : Char) : List Char :=
  if char = '\t' then ['\\', 't']
  else if char = '\r' then ['\\', 'r']
  else if char = '\n' then ['\\', 'n']
  else if char = '\\' ∨ char = quote then ['\\', char]
  else if char.toNat = 0 then ['\\', '0']
  else if isHidden char then ['\\', 'u', '\x7b'] ++ Nat.toDigits 16 char.toNat ++ ['\x7d']
  else [char]

def char (char : Char) : String :=
  String.ofList (['\''] ++ escape '\'' char ++ ['\''])

/-- Whether a character continues an octal escape. -/
def isOctal (char : Char) : Bool :=
  '0' ≤ char && char ≤ '7'

/-- The inside of a quoted text. A zero character in front of an octal digit is written with both
of its hexadecimal digits, so that the digit cannot be taken for a part of it. -/
def escapeAll : List Char → List Char
  | [] => []
  | char :: rest =>
      if char.toNat = 0 ∧ (rest.head?.any isOctal) then ['\\', 'x', '0', '0'] ++ escapeAll rest
      else escape '"' char ++ escapeAll rest

def text (text : String) : String :=
  String.ofList (['"'] ++ escapeAll text.toList ++ ['"'])

end ByteFormat.Quoted
