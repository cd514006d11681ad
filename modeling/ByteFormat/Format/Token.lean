import ByteFormat.Bytes
import ByteFormat.Format.Directive

/-! # Tokens of a format

A format is a sequence of literal runs and directives. A literal run is a maximal stretch without
percent signs. The format ends at its first zero byte; a directive cut short by the end of the
format yields no token, and nothing follows it.
-/

namespace ByteFormat

inductive Token where
  | literal (bytes : List UInt8)
  | directive (directive : Directive)
deriving DecidableEq, Repr

namespace Token

/-- Whether a byte can stand in a literal run. -/
def isLiteral (byte : UInt8) : Bool :=
  byte != '%'.toUInt8

/-- Reads the next token and returns what follows it. -/
def read? : List UInt8 → Option (Token × List UInt8)
  | [] => none
  | byte :: rest =>
      if isLiteral byte then
        some (.literal (byte :: rest.takeWhile isLiteral), rest.dropWhile isLiteral)
      else (Directive.read? rest).map fun (parsed, rest) => (.directive parsed, rest)

theorem read?_suffix {bytes rest : List UInt8} {token : Token}
    (read : read? bytes = some (token, rest)) : rest <:+ bytes := by
  cases bytes with
  | nil => cases read
  | cons byte tail =>
    simp only [read?] at read
    split at read
    · cases read
      exact (List.dropWhile_suffix isLiteral).trans (List.suffix_cons byte tail)
    · obtain ⟨⟨parsed, left⟩, found, same⟩ := Option.map_eq_some_iff.mp read
      cases same
      exact (List.suffix_cons _ _).trans <|
        (Directive.read?_suffix found).trans (List.suffix_cons byte tail)

/-- Every token takes at least one byte. -/
theorem read?_length {bytes rest : List UInt8} {token : Token}
    (read : read? bytes = some (token, rest)) : rest.length < bytes.length := by
  cases bytes with
  | nil => cases read
  | cons byte tail =>
    simp only [read?] at read
    split at read
    · cases read
      exact Nat.lt_succ_of_le (List.dropWhile_suffix isLiteral).length_le
    · obtain ⟨⟨parsed, left⟩, found, same⟩ := Option.map_eq_some_iff.mp read
      cases same
      exact Nat.lt_succ_of_lt (Directive.read?_suffix found).length_le

/-- Splits the body of a format into tokens, up to its end or to a directive cut short. -/
def scan (body : List UInt8) : List Token :=
  match _found : read? body with
  | none => []
  | some (token, rest) => token :: scan rest
termination_by body.length
decreasing_by exact read?_length (by assumption)

theorem scan_of_read?_eq_none {body : List UInt8} (none : read? body = none) : scan body = [] := by
  rw [scan]
  split
  · rfl
  · simp_all

theorem scan_of_read?_eq_some {body rest : List UInt8} {token : Token}
    (some : read? body = some (token, rest)) : scan body = token :: scan rest := by
  rw [scan]
  split <;> simp_all

@[simp] theorem scan_nil : scan [] = [] :=
  scan_of_read?_eq_none rfl

end Token

def tokens (format : List UInt8) : List Token :=
  Token.scan (untilNul format)

end ByteFormat
