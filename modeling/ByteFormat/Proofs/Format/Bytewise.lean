import ByteFormat.Format.Cursor

/-! # Reading byte by byte

A cursor is moved by what a token leaves of the body. Here the same tokens are read with a position
that is moved forward in every place where bytes are taken: over a literal run, over the percent
sign, and byte by byte through the parts of a directive. A part looks at the byte read last, and if
it takes that byte, the next one is read. The slices that this needs are checked, so that a call
fails where a position leaves the body. From a position inside the body no call fails, and it gives
the same token and the same position (`Cursor.next?_eq_some`).
-/

namespace ByteFormat

/-- The bytes from the first position up to the last, if there are such positions. -/
def slice? (bytes : List UInt8) (first last : Nat) : Option (List UInt8) :=
  if first ≤ last ∧ last ≤ bytes.length then some ((bytes.take last).drop first) else none

private theorem slice?_end {bytes : List UInt8} {first : Nat} (inside : first ≤ bytes.length) :
    slice? bytes first bytes.length = some (bytes.drop first) := by
  rw [slice?, if_pos ⟨inside, Nat.le_refl _⟩, List.take_length]

private theorem slice?_start {bytes : List UInt8} {last : Nat} (inside : last ≤ bytes.length) :
    slice? bytes 0 last = some (bytes.take last) := by
  rw [slice?, if_pos ⟨Nat.zero_le _, inside⟩, List.drop_zero]

/-- A byte that has been read and that no part of a directive has taken, and the cursor behind
it. -/
structure Held where
  byte : UInt8
  cursor : Cursor
deriving DecidableEq, Repr

namespace Cursor

def forward (cursor : Cursor) (count : Nat) : Cursor :=
  { cursor with position := cursor.position + count }

/-- Reads the byte at the position, if the body does not end there. -/
def hold? (cursor : Cursor) : Option Held :=
  cursor.body[cursor.position]?.map fun byte => { byte, cursor := cursor.forward 1 }

end Cursor

namespace Held

/-- The zero flag: the fill byte. -/
def takeFill? (held : Held) : Option (UInt8 × Held) :=
  if held.byte = '0'.toUInt8 then held.cursor.hold?.map ('0'.toUInt8, ·)
  else some (' '.toUInt8, held)

def takeWidth? (held : Held) : Option (Nat × Held) :=
  match Directive.digit? held.byte with
  | some width => held.cursor.hold?.map (width, ·)
  | none => some (0, held)

def takePrecision? (held : Held) : Option (Nat × Held) :=
  if held.byte = '.'.toUInt8 then
    held.cursor.hold?.bind fun places =>
      places.cursor.hold?.map ((Directive.digit? places.byte).getD 0, ·)
  else some (0, held)

def takeLength? (held : Held) : Option (Length × Held) :=
  if held.byte = 'l'.toUInt8 then
    held.cursor.hold?.bind fun second =>
      if second.byte = 'l'.toUInt8 then second.cursor.hold?.map (.longLong, ·)
      else some (.long, second)
  else some (.plain, held)

end Held

namespace Cursor

/-- Reads a directive behind its percent sign. The byte held in the end is the specifier; there is
no directive if the body ends before. -/
def directive? (cursor : Cursor) : Option (Directive × Cursor) :=
  cursor.hold?.bind fun held =>
  held.takeFill?.bind fun (fill, held) =>
  held.takeWidth?.bind fun (width, held) =>
  held.takePrecision?.bind fun (precision, held) =>
  held.takeLength?.bind fun (length, held) =>
    some ({ specifier := .ofByte held.byte, length, padding := { width, fill }, precision },
      held.cursor)

/-- Takes the next token. There is no result if a slice leaves the body. -/
def next? (cursor : Cursor) : Option (Option Token × Cursor) :=
  (slice? cursor.body cursor.position cursor.body.length).bind fun rest =>
    match rest.findIdx? (!Token.isLiteral ·) with
    | some 0 =>
        match (cursor.forward 1).directive? with
        | some (parsed, after) => some (some (.directive parsed), after)
        | none => some (none, { cursor with position := cursor.body.length })
    | some count =>
        (slice? rest 0 count).map fun run => (some (.literal run), cursor.forward count)
    | none =>
        if rest.isEmpty then some (none, cursor)
        else some (some (.literal rest), { cursor with position := cursor.body.length })

/-- The cursor that has the last bytes of a body ahead of it. -/
def ofRemaining (body rest : List UInt8) : Cursor :=
  { body, position := body.length - rest.length }

/-- The first of the last bytes of a body, held. -/
def holding? (body : List UInt8) : List UInt8 → Option Held
  | [] => none
  | byte :: rest => some { byte, cursor := ofRemaining body rest }

/-- A cursor inside its body is given by what lies ahead of it. -/
private theorem eq_ofRemaining {cursor : Cursor} (inside : cursor.position ≤ cursor.body.length) :
    cursor = ofRemaining cursor.body cursor.remaining := by
  have same : cursor.body.length - cursor.remaining.length = cursor.position := by
    rw [remaining, List.length_drop]
    omega
  rw [ofRemaining, same]

private theorem forward_ofRemaining {body rest : List UInt8} (run : List UInt8)
    (suffix : run ++ rest <:+ body) :
    (ofRemaining body (run ++ rest)).forward run.length = ofRemaining body rest := by
  have shorter := suffix.length_le
  rw [List.length_append] at shorter
  have position : body.length - (run ++ rest).length + run.length = body.length - rest.length := by
    rw [List.length_append]
    omega
  simp only [forward, ofRemaining, position]

private theorem hold?_ofRemaining {body rest : List UInt8} (suffix : rest <:+ body) :
    (ofRemaining body rest).hold? = holding? body rest := by
  have drop := List.suffix_iff_eq_drop.mp suffix
  cases rest with
  | nil => simp [hold?, holding?, ofRemaining]
  | cons byte rest =>
    have read : body[body.length - (byte :: rest).length]? = some byte := by
      rw [← Nat.add_zero (body.length - _), ← List.getElem?_drop, ← drop]
      rfl
    have moved := forward_ofRemaining [byte] suffix
    rw [hold?]
    simp only [ofRemaining, read, Option.map_some, holding?]
    exact congrArg (fun cursor => some (Held.mk byte cursor)) moved

private theorem remaining_ofRemaining {body rest : List UInt8} (suffix : rest <:+ body) :
    (ofRemaining body rest).remaining = rest :=
  (List.suffix_iff_eq_drop.mp suffix).symm

section Stages

variable {body rest : List UInt8}

/-- A part takes from the held byte on what is read from the bytes ahead. -/
private theorem takeFill?_holding? (suffix : rest <:+ body) :
    (holding? body rest).bind Held.takeFill? =
      (holding? body (Directive.readFill rest).2).map ((Directive.readFill rest).1, ·) := by
  cases rest with
  | nil => rfl
  | cons byte rest =>
    have tail := hold?_ofRemaining ((List.suffix_cons byte rest).trans suffix)
    simp only [holding?, Option.bind_some, Held.takeFill?, Directive.readFill, tail]
    split
    · rfl
    · rfl

private theorem takeWidth?_holding? (suffix : rest <:+ body) :
    (holding? body rest).bind Held.takeWidth? =
      (holding? body (Directive.readWidth rest).2).map ((Directive.readWidth rest).1, ·) := by
  cases rest with
  | nil => rfl
  | cons byte rest =>
    have tail := hold?_ofRemaining ((List.suffix_cons byte rest).trans suffix)
    simp only [holding?, Option.bind_some, Held.takeWidth?, Directive.readWidth, tail]
    cases Directive.digit? byte with
    | some width => rfl
    | none => rfl

private theorem takePrecision?_holding? (suffix : rest <:+ body) :
    (holding? body rest).bind Held.takePrecision? =
      (Directive.readPrecision? rest).bind fun (precision, left) =>
        (holding? body left).map (precision, ·) := by
  match rest with
  | [] => rfl
  | [byte] =>
    have tail := hold?_ofRemaining ((List.suffix_cons byte []).trans suffix)
    simp only [holding?, Option.bind_some, Held.takePrecision?, Directive.readPrecision?, tail]
    split
    · rfl
    · rfl
  | byte :: places :: rest =>
    have tail := (List.suffix_cons byte (places :: rest)).trans suffix
    have second := hold?_ofRemaining ((List.suffix_cons places rest).trans tail)
    simp only [holding?, Option.bind_some, Held.takePrecision?, Directive.readPrecision?,
      hold?_ofRemaining tail, second]
    split
    · rfl
    · rfl

private theorem takeLength?_holding? (suffix : rest <:+ body) :
    (holding? body rest).bind Held.takeLength? =
      (holding? body (Directive.readLength rest).2).map ((Directive.readLength rest).1, ·) := by
  match rest with
  | [] => rfl
  | [byte] =>
    have tail := hold?_ofRemaining ((List.suffix_cons byte []).trans suffix)
    simp only [holding?, Option.bind_some, Held.takeLength?, Directive.readLength, tail]
    split
    · rfl
    · rfl
  | byte :: second :: rest =>
    have tail := (List.suffix_cons byte (second :: rest)).trans suffix
    have third := hold?_ofRemaining ((List.suffix_cons second rest).trans tail)
    simp only [holding?, Option.bind_some, Held.takeLength?, Directive.readLength,
      hold?_ofRemaining tail, third]
    split
    · split
      · rfl
      · rfl
    · rfl

end Stages

/-- A part that was taken hands its value and the byte held next to what follows. -/
private theorem bind_holding? {α β : Type} {body rest left : List UInt8} {value : α}
    {part : Held → Option (α × Held)}
    (taken : (holding? body rest).bind part = (holding? body left).map (value, ·))
    (next : α × Held → Option β) :
    ((holding? body rest).bind fun held => (part held).bind next) =
      (holding? body left).bind fun held => next (value, held) := by
  rw [← Option.bind_assoc, taken, Option.bind_map]
  rfl

/-- A directive is read byte by byte as it is read part by part. -/
theorem directive?_ofRemaining {body rest : List UInt8} (suffix : rest <:+ body) :
    (ofRemaining body rest).directive? =
      (Directive.read? rest).map fun (parsed, left) => (parsed, ofRemaining body left) := by
  have behindFill := (Directive.readFill_suffix rest).trans suffix
  have behindWidth := (Directive.readWidth_suffix _).trans behindFill
  have precisions := takePrecision?_holding? behindWidth
  rw [directive?, hold?_ofRemaining suffix, bind_holding? (takeFill?_holding? suffix),
    bind_holding? (takeWidth?_holding? behindFill)]
  -- Of the parts, only the point refuses bytes; the others leave it to the specifier to be missing.
  cases placed : Directive.readPrecision? (Directive.readWidth (Directive.readFill rest).2).2 with
  | none =>
    rw [placed, Option.bind_none] at precisions
    rw [← Option.bind_assoc, precisions]
    simp only [Directive.read?, placed]
    rfl
  | some step =>
    obtain ⟨precision, left⟩ := step
    have behindPrecision := (Directive.readPrecision?_suffix placed).trans behindWidth
    rw [placed, Option.bind_some] at precisions
    rw [bind_holding? precisions, bind_holding? (takeLength?_holding? behindPrecision)]
    simp only [Directive.read?, placed]
    cases (Directive.readLength left).2 with
    | nil => rfl
    | cons byte rest => rfl

/-- The call on a cursor, by what lies ahead of it. -/
theorem next_ofRemaining {body rest : List UInt8} (suffix : rest <:+ body) :
    (ofRemaining body rest).next =
      match Token.read? rest with
      | some (token, left) => (some token, ofRemaining body left)
      | none => (none, ofRemaining body []) := by
  rw [next, remaining_ofRemaining suffix]
  cases Token.read? rest <;> rfl

/-- What lies ahead is a slice of the body. -/
theorem slice?_ofRemaining {body rest : List UInt8} (suffix : rest <:+ body) :
    slice? (ofRemaining body rest).body (ofRemaining body rest).position
      (ofRemaining body rest).body.length = some rest := by
  have inside : (ofRemaining body rest).position ≤ body.length := Nat.sub_le _ _
  exact (slice?_end inside).trans (congrArg some (remaining_ofRemaining suffix))

/-- A percent sign at the cursor: the bytes behind it are read as a directive. -/
private theorem next?_percent {body rest : List UInt8} {sign : UInt8}
    (suffix : sign :: rest <:+ body) (percent : Token.isLiteral sign = false) :
    (ofRemaining body (sign :: rest)).next? = some (ofRemaining body (sign :: rest)).next := by
  have moved : (ofRemaining body (sign :: rest)).forward 1 = ofRemaining body rest :=
    forward_ofRemaining [sign] suffix
  have found : (sign :: rest).findIdx? (!Token.isLiteral ·) = some 0 := by
    simp [List.findIdx?_cons, percent]
  rw [next_ofRemaining suffix, next?, slice?_ofRemaining suffix, Option.bind_some, found]
  simp only [moved, directive?_ofRemaining ((List.suffix_cons sign rest).trans suffix),
    Token.read?, percent]
  cases Directive.read? rest with
  | none => rfl
  | some read => rfl

/-- A literal byte at the cursor: the run goes on to the next percent sign or to the end. -/
private theorem next?_literal {body rest : List UInt8} {byte : UInt8}
    (suffix : byte :: rest <:+ body) (literal : Token.isLiteral byte = true) :
    (ofRemaining body (byte :: rest)).next? = some (ofRemaining body (byte :: rest)).next := by
  have read : Token.read? (byte :: rest) =
      some (.literal (byte :: rest.takeWhile Token.isLiteral), rest.dropWhile Token.isLiteral) := by
    rw [Token.read?, if_pos literal]
  rw [next_ofRemaining suffix, next?, slice?_ofRemaining suffix, Option.bind_some, read,
    List.findIdx?_cons, literal, List.takeWhile_eq_take_findIdx_not,
    List.dropWhile_eq_drop_findIdx_not]
  cases found : rest.findIdx? (!Token.isLiteral ·) with
  | none =>
    rw [List.findIdx?_eq_none_iff_findIdx_eq.mp found, List.take_length, List.drop_length]
    rfl
  | some count =>
    obtain ⟨inside, stop⟩ := List.findIdx?_eq_some_iff_findIdx_eq.mp found
    have part : slice? (byte :: rest) 0 (count + 1) = some (byte :: rest.take count) :=
      slice?_start (Nat.le_of_lt (Nat.succ_lt_succ inside))
    have moved : (ofRemaining body (byte :: rest)).forward (count + 1) =
        ofRemaining body (rest.drop count) := by
      have split : byte :: rest = (byte :: rest.take count) ++ rest.drop count := by
        rw [List.cons_append, List.take_append_drop]
      have length : (byte :: rest.take count).length = count + 1 := by
        rw [List.length_cons, List.length_take_of_le (Nat.le_of_lt inside)]
      rw [split] at suffix ⊢
      rw [← length, forward_ofRemaining _ suffix]
    simp [stop, part, moved]

/-- Inside its body, a cursor moved in every place where bytes are taken never leaves the body. It
gives the same token and ends at the same position as a cursor that is moved by what the token
leaves. -/
theorem next?_eq_some {cursor : Cursor} (inside : cursor.position ≤ cursor.body.length) :
    cursor.next? = some cursor.next := by
  have suffix : cursor.remaining <:+ cursor.body := List.drop_suffix _ _
  rw [eq_ofRemaining inside]
  cases ahead : cursor.remaining with
  | nil =>
    rw [ahead] at suffix
    rw [next_ofRemaining suffix, next?, slice?_ofRemaining suffix]
    rfl
  | cons byte rest =>
    rw [ahead] at suffix
    cases literal : Token.isLiteral byte with
    | true => exact next?_literal suffix literal
    | false => exact next?_percent suffix literal

end Cursor

end ByteFormat
