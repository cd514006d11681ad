import ByteFormat.Call.Invocation
import Mathlib.Data.List.Basic

/-! # The grammar of written calls

A call is its sink, a comma, its format and its operands, with commas between them. A comma behind
the format may be left out, and one may stand behind the last operand. Whatever parsers a call is
read with, as long as they keep their laws, reading accepts exactly the lists of terms and commas
that are written in this way, takes all of them, and yields the call that they were written for
(`read_accepts_what_is_written`).
-/

namespace ByteFormat.Call

def optionalComma (present : Bool) : List Lexeme :=
  if present then [.comma] else []

/-- Operands with commas between them. There may be one behind the last operand, if there is any. -/
def writtenOperands (operands : List Term) (trailing : Bool) : List Lexeme :=
  (operands.map Lexeme.term).intersperse .comma ++
    optionalComma (trailing && !operands.isEmpty)

private theorem writtenOperands_nil (trailing : Bool) : writtenOperands [] trailing = [] := by
  cases trailing <;> rfl

private theorem writtenOperands_singleton (term : Term) (trailing : Bool) :
    writtenOperands [term] trailing = .term term :: optionalComma trailing := by
  cases trailing <;> rfl

private theorem head?_writtenOperands (operands : List Term) (trailing : Bool) :
    (writtenOperands operands trailing).head? = operands.head?.map .term := by
  match operands with
  | [] => rw [writtenOperands_nil]; rfl
  | [term] => rw [writtenOperands_singleton]; rfl
  | first :: second :: rest => rfl

private theorem writtenOperands_eq_nil_iff {operands : List Term} {trailing : Bool} :
    writtenOperands operands trailing = [] ↔ operands = [] := by
  rw [← List.head?_eq_none_iff, head?_writtenOperands, Option.map_eq_none_iff,
    List.head?_eq_none_iff]

private theorem bind_eq_ok_iff {ε α β : Type} {first : Except ε α} {next : α → Except ε β}
    {result : β} :
    (first >>= next) = .ok result ↔ ∃ value, first = .ok value ∧ next value = .ok result := by
  cases first with
  | error error =>
    constructor
    · intro impossible
      cases impossible
    · rintro ⟨_, impossible, _⟩
      cases impossible
  | ok value =>
    constructor
    · intro ended
      exact ⟨value, rfl, ended⟩
    · rintro ⟨_, ⟨⟩, ended⟩
      exact ended

namespace Parsers

variable {ε : Type} {parsers : Parsers ε}

/-- Expressions are read from what is written for them and from nothing else. -/
theorem Lawful.expressions_eq_ok_iff (lawful : parsers.Lawful) {operands : List Term}
    {lexemes rest : List Lexeme} :
    parsers.expressions lexemes = .ok (operands, rest) ↔
      rest = [] ∧ ∃ trailing, lexemes = writtenOperands operands trailing := by
  -- Each step of the law takes off one operand.
  induction operands generalizing lexemes with
  | nil =>
    rw [lawful.expressions_iff, lawful.isEmpty_iff]
    constructor
    · rintro (⟨rfl, _, rfl⟩ | ⟨_, _, _, impossible⟩ | ⟨_, _, _, _, _, _, _, impossible⟩)
      · exact ⟨rfl, false, rfl⟩
      · cases impossible
      · cases impossible
    · rintro ⟨rfl, trailing, rfl⟩
      exact .inl ⟨writtenOperands_nil trailing, rfl, (writtenOperands_nil trailing).symm⟩
  | cons first others ih =>
    rw [lawful.expressions_iff]
    simp only [lawful.isEmpty_iff, lawful.expression_iff, lawful.comma_iff]
    constructor
    · rintro (⟨_, impossible, _⟩ | ⟨_, rfl, rfl, same⟩ | ⟨_, _, _, _, rfl, rfl, read, same⟩)
      · cases impossible
      · cases same
        exact ⟨rfl, false, rfl⟩
      · cases same
        obtain ⟨rfl, trailing, rfl⟩ := ih.mp read
        -- A comma with nothing behind it is the trailing one; any other stands between operands.
        cases others with
        | nil => exact ⟨rfl, true, by rw [writtenOperands_nil]; rfl⟩
        | cons second others => exact ⟨rfl, trailing, rfl⟩
    · rintro ⟨rfl, trailing, rfl⟩
      cases others with
      | nil =>
        cases trailing with
        | false => exact .inr (.inl ⟨first, rfl, rfl, rfl⟩)
        | true => exact .inr (.inr ⟨first, _, [], [], rfl, rfl, ih.mpr ⟨rfl, false, rfl⟩, rfl⟩)
      | cons second others =>
        have rest := ih.mpr ⟨rfl, trailing, rfl⟩
        exact .inr (.inr ⟨first, _, _, second :: others, rfl, rfl, rest, rfl⟩)

/-- In front of operands the optional comma is taken if it is there. -/
private theorem Lawful.comma?_optionalComma (lawful : parsers.Lawful) (afterFormat trailing : Bool)
    (operands : List Term) :
    ∃ comma, parsers.comma? (optionalComma afterFormat ++ writtenOperands operands trailing) =
      .ok (comma, writtenOperands operands trailing) := by
  cases afterFormat with
  | true => exact ⟨_, lawful.comma?_of_comma _⟩
  | false =>
    refine ⟨_, lawful.comma?_of_ne ?_⟩
    rw [optionalComma, if_neg Bool.false_ne_true, List.nil_append, head?_writtenOperands]
    cases operands <;> simp

private theorem Lawful.eq_of_comma? (lawful : parsers.Lawful) {lexemes rest : List Lexeme}
    {comma : Option Unit} (taken : parsers.comma? lexemes = .ok (comma, rest)) :
    ∃ afterFormat, lexemes = optionalComma afterFormat ++ rest := by
  match lexemes with
  | .comma :: behind =>
    rw [lawful.comma?_of_comma] at taken
    cases taken
    exact ⟨true, rfl⟩
  | [] =>
    rw [lawful.comma?_of_ne (by simp)] at taken
    cases taken
    exact ⟨false, rfl⟩
  | .term term :: behind =>
    rw [lawful.comma?_of_ne (by simp)] at taken
    cases taken
    exact ⟨false, rfl⟩

private theorem plain_expression_iff {lexemes rest : List Lexeme} {term : Term} :
    plain.expression lexemes = .ok (term, rest) ↔ lexemes = .term term :: rest := by
  match lexemes with
  | [] | .comma :: _ | .term _ :: _ => simp [plain]

private theorem plain_comma_iff {lexemes rest : List Lexeme} :
    plain.comma lexemes = .ok ((), rest) ↔ lexemes = .comma :: rest := by
  match lexemes with
  | [] | .comma :: _ | .term _ :: _ => simp [plain]

private theorem takeTerms_eq_ok_iff {lexemes rest : List Lexeme} {terms : List Term} :
    takeTerms lexemes = .ok (terms, rest) ↔
      (lexemes = [] ∧ terms = [] ∧ rest = lexemes) ∨
      (∃ term, lexemes = .term term :: rest ∧ rest = [] ∧ terms = [term]) ∨
      ∃ term behind after others, lexemes = .term term :: behind ∧ behind = .comma :: after ∧
        takeTerms after = .ok (others, rest) ∧ terms = term :: others := by
  match lexemes with
  | [] | .comma :: _ | [.term _] | .term _ :: .term _ :: _ => grind [takeTerms]
  | .term first :: .comma :: behind =>
    cases read : takeTerms behind with
    | error error => grind [takeTerms, Except.map]
    | ok pair => grind [takeTerms, Except.map]

theorem plain_lawful : plain.Lawful where
  expression_iff := plain_expression_iff
  text_iff {lexemes rest value} := by
    match lexemes with
    | [] | .comma :: _ => simp [plain]
    | .term (.name _) :: _ | .term (.number _) :: _ | .term (.text _) :: _ => simp [plain]
  comma_iff := plain_comma_iff
  comma?_of_comma _ := rfl
  comma?_of_ne {lexemes} other := by
    match lexemes with
    | [] | .term _ :: _ => rfl
    | .comma :: _ => exact absurd rfl other
  expressions_iff {lexemes rest terms} := by
    simp only [plain_expression_iff, plain_comma_iff]
    simp only [plain, List.isEmpty_iff]
    exact takeTerms_eq_ok_iff
  isEmpty_iff := List.isEmpty_iff

end Parsers

namespace Invocation

variable {ε : Type} {parsers : Parsers ε}

/-- A call as it is written, with or without the two commas that may be left out. -/
def written (invocation : Invocation) (afterFormat trailing : Bool) : List Lexeme :=
  .term invocation.sink :: .comma :: .term (.text invocation.format) ::
    (optionalComma afterFormat ++ writtenOperands invocation.operands trailing)

theorem readInput_eq_ok_iff (lawful : parsers.Lawful) {lexemes rest : List Lexeme} {format : String}
    {operands : List Term} :
    readInput parsers lexemes = .ok ((format, operands), rest) ↔
      rest = [] ∧ ∃ afterFormat trailing, lexemes = .term (.text format) ::
        (optionalComma afterFormat ++ writtenOperands operands trailing) := by
  constructor
  · intro accepted
    obtain ⟨⟨value, behind⟩, literal, remainder⟩ := bind_eq_ok_iff.mp accepted
    obtain rfl := lawful.text_iff.mp literal
    dsimp only at remainder
    by_cases ended : parsers.isEmpty behind = true
    · obtain rfl := lawful.isEmpty_iff.mp ended
      rw [if_pos ended] at remainder
      cases remainder
      exact ⟨rfl, false, false, rfl⟩
    · rw [if_neg ended] at remainder
      obtain ⟨⟨comma, after⟩, skipped, remainder⟩ := bind_eq_ok_iff.mp remainder
      obtain ⟨⟨terms, last⟩, listed, result⟩ := bind_eq_ok_iff.mp remainder
      cases result
      obtain ⟨rfl, trailing, rfl⟩ := lawful.expressions_eq_ok_iff.mp listed
      obtain ⟨afterFormat, rfl⟩ := lawful.eq_of_comma? skipped
      exact ⟨rfl, afterFormat, trailing, rfl⟩
  · rintro ⟨rfl, afterFormat, trailing, rfl⟩
    refine bind_eq_ok_iff.mpr ⟨_, lawful.text_iff.mpr rfl, ?_⟩
    dsimp only
    by_cases ended : parsers.isEmpty
        (optionalComma afterFormat ++ writtenOperands operands trailing) = true
    · -- Nothing is written behind the format, so there are no operands.
      rw [if_pos ended]
      obtain ⟨_, none⟩ := List.append_eq_nil_iff.mp (lawful.isEmpty_iff.mp ended)
      rw [lawful.isEmpty_iff.mp ended, writtenOperands_eq_nil_iff.mp none]
      rfl
    · rw [if_neg ended]
      obtain ⟨comma, skipped⟩ := lawful.comma?_optionalComma afterFormat trailing operands
      have listed : parsers.expressions (writtenOperands operands trailing) = .ok (operands, []) :=
        lawful.expressions_eq_ok_iff.mpr ⟨rfl, trailing, rfl⟩
      exact bind_eq_ok_iff.mpr ⟨_, skipped, bind_eq_ok_iff.mpr ⟨_, listed, rfl⟩⟩

/-- Reading inverts writing. A list of terms and commas is read as a call exactly if the call is
written so, with or without a comma behind the format, and with or without one behind the last
operand; then nothing of it is left over, and every other list is refused. Hence a call is read back
however it is written. -/
theorem read_accepts_what_is_written (lawful : parsers.Lawful) :
    (∀ (lexemes rest : List Lexeme) (invocation : Invocation),
      read parsers lexemes = .ok (invocation, rest) ↔
        rest = [] ∧
          ∃ afterFormat trailing, lexemes = invocation.written afterFormat trailing) ∧
    ∀ (invocation : Invocation) (afterFormat trailing : Bool),
      read parsers (invocation.written afterFormat trailing) = .ok (invocation, []) := by
  have accepts (lexemes rest : List Lexeme) (invocation : Invocation) :
      read parsers lexemes = .ok (invocation, rest) ↔
        rest = [] ∧
          ∃ afterFormat trailing, lexemes = invocation.written afterFormat trailing := by
    constructor
    · intro accepted
      obtain ⟨⟨sink, behind⟩, first, remainder⟩ := bind_eq_ok_iff.mp accepted
      obtain ⟨⟨_, after⟩, comma, remainder⟩ := bind_eq_ok_iff.mp remainder
      obtain ⟨⟨⟨format, operands⟩, last⟩, input, result⟩ := bind_eq_ok_iff.mp remainder
      cases result
      obtain rfl := lawful.expression_iff.mp first
      obtain rfl := lawful.comma_iff.mp comma
      obtain ⟨rfl, afterFormat, trailing, rfl⟩ := (readInput_eq_ok_iff lawful).mp input
      exact ⟨rfl, afterFormat, trailing, rfl⟩
    · rintro ⟨rfl, afterFormat, trailing, rfl⟩
      have first : parsers.expression (invocation.written afterFormat trailing) = .ok _ :=
        lawful.expression_iff.mpr rfl
      have input : readInput parsers (.term (.text invocation.format) ::
          (optionalComma afterFormat ++ writtenOperands invocation.operands trailing)) =
            .ok ((invocation.format, invocation.operands), []) :=
        (readInput_eq_ok_iff lawful).mpr ⟨rfl, afterFormat, trailing, rfl⟩
      refine bind_eq_ok_iff.mpr ⟨_, first, bind_eq_ok_iff.mpr ⟨_, lawful.comma_iff.mpr rfl, ?_⟩⟩
      exact bind_eq_ok_iff.mpr ⟨_, input, rfl⟩
  refine ⟨accepts, ?_⟩
  intro invocation afterFormat trailing
  exact (accepts _ [] invocation).mpr ⟨rfl, afterFormat, trailing, rfl⟩

/-- The plain parsers read a call without a comma behind its format, whose first operand is a text
like the format, and with one behind the last operand. They refuse it with a comma doubled. -/
theorem read_accepts_what_is_written_plain :
    Parsers.plain.Lawful ∧
    read .plain [.term (.name "out"), .comma, .term (.text "%s%d"), .term (.text "a"), .comma,
        .term (.number "5"), .comma] =
      .ok ({ sink := .name "out", format := "%s%d", operands := [.text "a", .number "5"] }, []) ∧
    read .plain [.term (.name "out"), .comma, .term (.text "%s%d"), .comma, .comma,
        .term (.text "a")] =
      .error .expectedExpression := by
  obtain ⟨_, reads⟩ := read_accepts_what_is_written Parsers.plain_lawful
  exact ⟨Parsers.plain_lawful,
    reads { sink := .name "out", format := "%s%d", operands := [.text "a", .number "5"] }
      false true,
    rfl⟩

end Invocation

end ByteFormat.Call
