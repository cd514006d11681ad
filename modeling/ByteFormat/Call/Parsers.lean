import ByteFormat.Quoted

/-! # Parsers for the parts of a call

A call is written as terms and commas. Its parts are read by parsers that are not defined here:
`Parsers` names them, and `Parsers.Lawful` states what is relied on, on lists of lexemes whose terms
are single tokens. The plain parsers of such lists are parsers of this kind, and they say what they
expected where they fail.
-/

namespace ByteFormat.Call

inductive Term where
  | name (spelling : String)
  | text (value : String)
  | number (digits : String)
deriving DecidableEq, Repr

def Term.source : Term → String
  | .name spelling => spelling
  | .text value => Quoted.text value
  | .number digits => digits

inductive Lexeme where
  | term (term : Term)
  | comma
deriving DecidableEq, Repr

/-- Takes a part off the front of the lexemes, or fails. -/
abbrev Parser (ε α : Type) :=
  List Lexeme → Except ε (α × List Lexeme)

/-- The parsers that a call is read with, and the test for the end of the lexemes. -/
structure Parsers (ε : Type) where
  expression : Parser ε Term
  /-- A text literal, by its value. -/
  text : Parser ε String
  comma : Parser ε Unit
  /-- A comma, if one stands first. -/
  comma? : Parser ε (Option Unit)
  /-- Expressions up to the end of the lexemes. -/
  expressions : Parser ε (List Term)
  isEmpty : List Lexeme → Bool

/-- What is relied on of the parsers. -/
structure Parsers.Lawful {ε : Type} (parsers : Parsers ε) : Prop where
  /-- A single term is an expression, and nothing else begins one. -/
  expression_iff {lexemes rest : List Lexeme} {term : Term} :
    parsers.expression lexemes = .ok (term, rest) ↔ lexemes = .term term :: rest
  text_iff {lexemes rest : List Lexeme} {value : String} :
    parsers.text lexemes = .ok (value, rest) ↔ lexemes = .term (.text value) :: rest
  comma_iff {lexemes rest : List Lexeme} :
    parsers.comma lexemes = .ok ((), rest) ↔ lexemes = .comma :: rest
  comma?_of_comma (rest : List Lexeme) : parsers.comma? (.comma :: rest) = .ok (some (), rest)
  /-- Where no comma stands first, nothing is taken. -/
  comma?_of_ne {lexemes : List Lexeme} (other : lexemes.head? ≠ some .comma) :
    parsers.comma? lexemes = .ok (none, lexemes)
  /-- Expressions are separated by commas, and reading them ends with the lexemes: in front of an
  expression, behind an expression, or behind a comma. -/
  expressions_iff {lexemes rest : List Lexeme} {terms : List Term} :
    parsers.expressions lexemes = .ok (terms, rest) ↔
      (parsers.isEmpty lexemes = true ∧ terms = [] ∧ rest = lexemes) ∨
      (∃ term, parsers.expression lexemes = .ok (term, rest) ∧ parsers.isEmpty rest = true ∧
        terms = [term]) ∨
      ∃ term behind after others, parsers.expression lexemes = .ok (term, behind) ∧
        parsers.comma behind = .ok ((), after) ∧
        parsers.expressions after = .ok (others, rest) ∧ terms = term :: others
  isEmpty_iff {lexemes : List Lexeme} : parsers.isEmpty lexemes = true ↔ lexemes = []

inductive SyntaxError where
  | expectedExpression
  | endBeforeExpression
  | expectedFormat
  | endBeforeFormat
  | expectedComma
deriving DecidableEq, Repr

def SyntaxError.message : SyntaxError → String
  | .expectedExpression => "expected expression"
  | .endBeforeExpression => "unexpected end of input, expected expression"
  | .expectedFormat => "expected string literal"
  | .endBeforeFormat => "unexpected end of input, expected string literal"
  | .expectedComma => "expected `,`"

namespace Parsers

/-- Takes terms separated by commas up to the end. -/
def takeTerms : Parser SyntaxError (List Term)
  | [] => .ok ([], [])
  | .comma :: _ => .error .expectedExpression
  | [.term term] => .ok ([term], [])
  | .term term :: .comma :: rest =>
      (takeTerms rest).map fun (terms, rest) => (term :: terms, rest)
  | .term _ :: .term _ :: _ => .error .expectedComma

/-- The parsers of lists of single tokens. -/
def plain : Parsers SyntaxError where
  expression
    | [] => .error .endBeforeExpression
    | .comma :: _ => .error .expectedExpression
    | .term term :: rest => .ok (term, rest)
  text
    | [] => .error .endBeforeFormat
    | .term (.text value) :: rest => .ok (value, rest)
    | _ :: _ => .error .expectedFormat
  comma
    | .comma :: rest => .ok ((), rest)
    | _ => .error .expectedComma
  comma?
    | .comma :: rest => .ok (some (), rest)
    | lexemes => .ok (none, lexemes)
  expressions := takeTerms
  isEmpty := List.isEmpty

end Parsers

end ByteFormat.Call
