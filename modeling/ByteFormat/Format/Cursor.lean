import ByteFormat.Format.Token

/-! # Reading tokens one at a time

A cursor holds the body of a format and a position in it. Advancing returns the token at the
position and moves behind it. At the end of the body, or at a directive cut short, there is no
token, and the cursor stays at the end from then on.
-/

namespace ByteFormat

/-- A position in the body of a format. -/
structure Cursor where
  body : List UInt8
  position : Nat
deriving DecidableEq, Repr

namespace Cursor

/-- The start of a format, which ends at its first zero byte. -/
def start (format : List UInt8) : Cursor :=
  { body := untilNul format, position := 0 }

/-- What lies ahead of the cursor. -/
def remaining (cursor : Cursor) : List UInt8 :=
  cursor.body.drop cursor.position

def next (cursor : Cursor) : Option Token × Cursor :=
  match Token.read? cursor.remaining with
  | some (token, rest) =>
      (some token, { cursor with position := cursor.body.length - rest.length })
  | none => (none, { cursor with position := cursor.body.length })

/-- A token moves the cursor forward within the body. -/
theorem next_position {cursor after : Cursor} {token : Token}
    (step : cursor.next = (some token, after)) :
    after.body = cursor.body ∧ cursor.position < after.position ∧
      after.position ≤ after.body.length := by
  simp only [next] at step
  split at step
  · next found =>
    cases step
    have shorter := Token.read?_length found
    simp only [remaining, List.length_drop] at shorter
    exact ⟨rfl, by simp only; omega, by simp only; omega⟩
  · cases step

/-- What lies behind a token lies ahead of the cursor next. -/
theorem next_remaining {cursor after : Cursor} {token : Token}
    (step : cursor.next = (some token, after)) :
    Token.read? cursor.remaining = some (token, after.remaining) := by
  simp only [next] at step
  split at step
  · next read rest found =>
    cases step
    have suffix : rest <:+ cursor.body :=
      (Token.read?_suffix found).trans (List.drop_suffix cursor.position cursor.body)
    rw [found, remaining, ← List.suffix_iff_eq_drop.mp suffix]
  · cases step

/-- Takes all tokens that are left. -/
def drain (cursor : Cursor) : List Token × Cursor :=
  match _step : cursor.next with
  | (none, after) => ([], after)
  | (some token, after) =>
      let (tokens, final) := after.drain
      (token :: tokens, final)
termination_by cursor.body.length - cursor.position
decreasing_by
  obtain ⟨same, forward, inside⟩ := next_position ‹_›
  rw [same] at *
  omega

end Cursor

end ByteFormat
