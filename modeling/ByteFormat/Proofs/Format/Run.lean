import ByteFormat.Format.Cursor

/-! # Runs of a cursor

A run takes tokens one after the other. Every cursor has a run that takes all the tokens ahead of
it (`Cursor.exists_run`). Where that run stops, either nothing is left, or a percent sign is left
whose directive the end of the format cuts short.
-/

namespace ByteFormat

/-- No token can be read exactly at the end and inside a directive that is cut short. -/
theorem Token.read?_eq_none_iff {body : List UInt8} :
    read? body = none ↔
      body = [] ∨ ∃ rest, body = '%'.toUInt8 :: rest ∧ Directive.read? rest = none := by
  constructor
  · intro missing
    cases body with
    | nil => exact .inl rfl
    | cons byte rest =>
      simp only [read?] at missing
      split at missing
      · cases missing
      · next percent =>
        have sign : byte = '%'.toUInt8 := by simpa [isLiteral] using percent
        exact .inr ⟨rest, by rw [sign], Option.map_eq_none_iff.mp missing⟩
  · rintro (rfl | ⟨rest, rfl, cut⟩)
    · rfl
    · simp [read?, isLiteral, cut]

namespace Cursor

/-- The first cursor takes the tokens, in their order, and then stands where the second one does. -/
inductive Run : Cursor → List Token → Cursor → Prop
  | nil (cursor : Cursor) : Run cursor [] cursor
  | cons {cursor middle after : Cursor} {token : Token} {taken : List Token} :
      cursor.next = (some token, middle) → Run middle taken after →
        Run cursor (token :: taken) after

/-- A percent sign lies ahead, and the format ends inside its directive. -/
def CutShort (cursor : Cursor) : Prop :=
  ∃ rest, cursor.remaining = '%'.toUInt8 :: rest ∧ Directive.read? rest = none

/-- Some run of the cursor comes to a directive that is cut short. -/
def RunsIntoCut (cursor : Cursor) : Prop :=
  ∃ taken after, cursor.Run taken after ∧ after.CutShort

/-- A cursor takes no token exactly at the end of the body and before a directive cut short. -/
theorem next_fst_eq_none_iff (cursor : Cursor) :
    cursor.next.1 = none ↔ cursor.remaining = [] ∨ cursor.CutShort := by
  rw [CutShort, ← Token.read?_eq_none_iff, next]
  split <;> simp [*]

/-- Every cursor can take all the tokens ahead of it, and then stands where none is left. -/
theorem exists_run (cursor : Cursor) :
    ∃ after, Run cursor (Token.scan cursor.remaining) after ∧
      (after.remaining = [] ∨ after.CutShort) := by
  fun_induction drain cursor with
  | case1 cursor after step =>
    have stopped := (next_fst_eq_none_iff cursor).mp (by rw [step])
    have missing : Token.read? cursor.remaining = none := Token.read?_eq_none_iff.mpr stopped
    rw [Token.scan_of_read?_eq_none missing]
    exact ⟨cursor, .nil cursor, stopped⟩
  | case2 cursor token middle step tokens final rest ih =>
    obtain ⟨after, run, stopped⟩ := ih
    rw [Token.scan_of_read?_eq_some (next_remaining step)]
    exact ⟨after, .cons step run, stopped⟩

/-- Where no run comes to a directive cut short, the tokens ahead lead to the end. -/
theorem exists_run_to_end {cursor : Cursor} (whole : ¬ cursor.RunsIntoCut) :
    ∃ after, Run cursor (Token.scan cursor.remaining) after ∧ after.remaining = [] := by
  obtain ⟨after, run, stopped⟩ := cursor.exists_run
  exact ⟨after, run, stopped.resolve_right fun cut => whole ⟨_, after, run, cut⟩⟩

end Cursor

end ByteFormat
