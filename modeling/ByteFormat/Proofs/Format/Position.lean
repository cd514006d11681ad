import ByteFormat.Proofs.Format.Bytewise
import ByteFormat.Proofs.Format.Tiling

/-! # Positions of a cursor

A cursor can be called any number of times. Its position is one of the body before and after each
call, and no slice leaves the body in between. A call that returns a token moves over the text of
the token, so there are at most as many tokens as bytes. The first call that returns none, at the
end of the body or inside a directive that is cut short, moves to the end, and every call from then
on returns none and stays there (`Cursor.calls_stay_inside_and_end`).
-/

namespace ByteFormat

namespace Token

/-- Every token takes a byte, so there are no more tokens than bytes. -/
theorem length_scan_le (body : List UInt8) : (scan body).length ≤ body.length := by
  fun_induction scan body with
  | case1 body missing => exact Nat.zero_le _
  | case2 body token rest read ih =>
    have shorter := read?_length read
    rw [List.length_cons]
    omega

private theorem Written.read?_directive {parsed : Directive} {text : List UInt8}
    (written : (Token.directive parsed).Written text) (rest : List UInt8) :
    read? (text ++ rest) = some (.directive parsed, rest) := by
  refine read?_eq_some_iff.mpr ⟨text, rfl, written, ?_⟩
  intro run
  cases run

/-- Of all texts that a token can be read from, only one stands at a given place. -/
theorem Written.unique {token : Token} {text other rest left : List UInt8}
    (written : token.Written text) (another : token.Written other)
    (same : text ++ rest = other ++ left) : text = other := by
  cases token with
  | literal bytes =>
    cases written
    cases another
    rfl
  | directive parsed =>
    -- Spellings of one directive differ, so the texts are compared by what they leave behind.
    have read := written.read?_directive rest
    rw [same, another.read?_directive left] at read
    obtain rfl : left = rest := congrArg Prod.snd (Option.some.inj read)
    exact List.append_cancel_right same

end Token

namespace Cursor

def after (cursor : Cursor) : Nat → Cursor
  | 0 => cursor
  | calls + 1 => cursor.next.2.after calls

/-- The bytes ahead begin with a text that the token can be read from. -/
def SourceText (cursor : Cursor) (token : Token) (text : List UInt8) : Prop :=
  token.Written text ∧ text <+: cursor.remaining

section Step

variable {cursor : Cursor}

private theorem body_next (cursor : Cursor) : cursor.next.2.body = cursor.body := by
  rw [next]
  split <;> rfl

private theorem position_next_le (cursor : Cursor) :
    cursor.next.2.position ≤ cursor.body.length := by
  rw [next]
  split
  · exact Nat.sub_le _ _
  · exact Nat.le_refl _

/-- A token moves the cursor over the text that it is read from. -/
theorem next_moves_over_text {token : Token} (found : cursor.next.1 = some token) :
    ∃ text, (∀ other, cursor.SourceText token other ↔ other = text) ∧
      cursor.position < cursor.next.2.position ∧
      cursor.next.2.position = cursor.position + text.length := by
  have step : cursor.next = (some token, cursor.next.2) := Prod.ext found rfl
  obtain ⟨_, forward, inside⟩ := next_position step
  obtain ⟨text, split, written, _⟩ := Token.read?_eq_some_iff.mp (next_remaining step)
  refine ⟨text, ?_, forward, ?_⟩
  · intro other
    constructor
    · rintro ⟨another, left, ahead⟩
      exact another.unique written (ahead.trans split)
    · rintro rfl
      exact ⟨written, _, split.symm⟩
  · have sizes := congrArg List.length split
    simp only [List.length_append, remaining, List.length_drop, body_next] at sizes inside
    omega

private theorem next_of_none (missing : cursor.next.1 = none) :
    cursor.next.2 = { cursor with position := cursor.body.length } := by
  rw [next] at missing ⊢
  split at missing
  · cases missing
  · rfl

private theorem next_at_end (ended : cursor.position = cursor.body.length) :
    cursor.next = (none, cursor) := by
  have nothing : cursor.remaining = [] := by rw [remaining, ended, List.drop_length]
  rw [next, nothing, Token.read?, ← ended]

end Step

section Run

variable {cursor : Cursor}

private theorem after_inside (inside : cursor.position ≤ cursor.body.length) (calls : Nat) :
    (cursor.after calls).body = cursor.body ∧
      (cursor.after calls).position ≤ cursor.body.length := by
  induction calls generalizing cursor with
  | zero => exact ⟨rfl, inside⟩
  | succ calls ih =>
    rw [after, ← cursor.body_next]
    apply ih
    rw [body_next]
    exact cursor.position_next_le

private theorem after_at_end (ended : cursor.position = cursor.body.length) (calls : Nat) :
    cursor.after calls = cursor := by
  induction calls with
  | zero => rfl
  | succ calls ih => rw [after, next_at_end ended, ih]

/-- A call without a token and all calls behind it return none and leave the cursor at the end. -/
private theorem next_after_of_none (missing : cursor.next.1 = none) (later : Nat) :
    (cursor.after later).next = (none, { cursor with position := cursor.body.length }) := by
  have ended := next_of_none missing
  cases later with
  | zero => exact Prod.ext missing ended
  | succ later => rw [after, ended, after_at_end rfl, next_at_end rfl]

/-- The calls return the tokens ahead, one after the other. -/
theorem next_fst_after (cursor : Cursor) (calls : Nat) :
    (cursor.after calls).next.1 = (Token.scan cursor.remaining)[calls]? := by
  induction calls generalizing cursor with
  | zero =>
    rw [after, next, Token.scan.eq_def]
    cases Token.read? cursor.remaining <;> rfl
  | succ calls ih =>
    rw [after, ih]
    cases found : cursor.next.1 with
    | some token =>
      have step : cursor.next = (some token, cursor.next.2) := Prod.ext found rfl
      rw [Token.scan_of_read?_eq_some (next_remaining step), List.getElem?_cons_succ]
    | none =>
      -- The call leaves nothing ahead, so no further entry is asked of the list.
      have missing : Token.read? cursor.remaining = none :=
        Token.read?_eq_none_iff.mpr ((next_fst_eq_none_iff cursor).mp found)
      rw [Token.scan_of_read?_eq_none missing, next_of_none found, remaining, List.drop_length,
        Token.scan_nil]
      rfl

end Run

/-- Whatever the number of calls on a cursor at the start of a format, it stays in the body, and so
does every slice that the next call takes. If that call returns a token, it moves the cursor over
the only text ahead that the token can be read from. It returns none at the end and inside a
directive cut short, that is, behind the last token, and there are no more tokens than bytes. From
then on every call returns none and leaves the cursor at the end. -/
theorem calls_stay_inside_and_end {format : List UInt8} {calls : Nat} {cursor : Cursor}
    (reached : (start format).after calls = cursor) :
    cursor.body = untilNul format ∧
    cursor.position ≤ (untilNul format).length ∧
    cursor.next.2.position ≤ (untilNul format).length ∧
    cursor.next? = some cursor.next ∧
    (∀ token, cursor.next.1 = some token →
      ∃ text, (∀ other, cursor.SourceText token other ↔ other = text) ∧
        cursor.position < cursor.next.2.position ∧
        cursor.next.2.position = cursor.position + text.length) ∧
    (cursor.next.1 = none ↔ cursor.remaining = [] ∨ cursor.CutShort) ∧
    (cursor.next.1 = none ↔ (tokens format).length ≤ calls) ∧
    (tokens format).length ≤ (untilNul format).length ∧
    (cursor.next.1 = none → ∀ later, (cursor.after later).next =
      (none, { body := untilNul format, position := (untilNul format).length })) := by
  have beginning : (start format).position ≤ (start format).body.length := Nat.zero_le _
  obtain ⟨body, inside⟩ := reached ▸ after_inside beginning calls
  have same : cursor.body = untilNul format := body
  have counted := reached ▸ next_fst_after (start format) calls
  refine ⟨same, inside, ?_, next?_eq_some (body ▸ inside), ?_, next_fst_eq_none_iff cursor, ?_,
    Token.length_scan_le _, ?_⟩
  · rw [← same]
    exact cursor.position_next_le
  · intro token found
    exact next_moves_over_text found
  · rw [counted, List.getElem?_eq_none_iff]
    rfl
  · intro missing later
    rw [next_after_of_none missing, same]

/-- A directive is passed over with the idle byte behind its point. The one behind it is cut short
by a zero byte, and no call returns a token from then on. -/
theorem calls_stay_inside_and_end_cut :
    (start (utf8 "a%.xd%5" ++ 0 :: utf8 "d")).after 1 =
      { body := utf8 "a%.xd%5", position := 1 } ∧
    ({ body := utf8 "a%.xd%5", position := 1 } : Cursor).next.2.position =
      1 + (utf8 "%.xd").length ∧
    (start (utf8 "a%.xd%5" ++ 0 :: utf8 "d")).after 2 =
      { body := utf8 "a%.xd%5", position := 5 } ∧
    (({ body := utf8 "a%.xd%5", position := 5 } : Cursor).after 3).next =
      (none, { body := utf8 "a%.xd%5", position := 7 }) := by
  have first : (start (utf8 "a%.xd%5" ++ 0 :: utf8 "d")).after 1 =
      { body := utf8 "a%.xd%5", position := 1 } := by
    decide +kernel
  have second : (start (utf8 "a%.xd%5" ++ 0 :: utf8 "d")).after 2 =
      { body := utf8 "a%.xd%5", position := 5 } := by
    decide +kernel
  have found : ({ body := utf8 "a%.xd%5", position := 1 } : Cursor).next.1 =
      some (.directive { specifier := .convert .signed }) := by
    decide +kernel
  let spelling : Spelling :=
    { flag := false, width := none, places := some 'x'.toUInt8, length := .plain,
      last := 'd'.toUInt8 }
  have letter : spelling.last = Conversion.signed.letter := rfl
  have written := Token.Written.directive (Spelling.greedy_of_letter letter (by simp [spelling]))
  obtain ⟨_, _, _, _, moves, _⟩ := calls_stay_inside_and_end first
  obtain ⟨text, only, _, moved⟩ := moves _ found
  obtain rfl : utf8 "%.xd" = text := (only _).mp ⟨written, by decide +kernel⟩
  obtain ⟨_, _, _, _, _, _, _, _, ended⟩ := calls_stay_inside_and_end second
  exact ⟨first, moved, second, ended (by decide +kernel) 3⟩

end Cursor

end ByteFormat
