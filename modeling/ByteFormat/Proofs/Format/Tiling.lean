import ByteFormat.Proofs.Format.Canonical
import ByteFormat.Proofs.Format.Run

/-! # Tokens tile their format

A tiling splits the body of a format into the texts of tokens, one behind the other, and a
remainder. Literal runs are as long as they can be, directives are written greedily, and what
remains is nothing or the beginning of a directive. Every body has a tiling, and its tokens are
those that reading finds (`tokens_tile_body`): no byte of the body is skipped or read twice, and no
other list of tokens tiles it.
-/

namespace ByteFormat

namespace Directive

private theorem read?_append {bytes rest : List UInt8} {directive : Directive}
    (read : read? bytes = some (directive, rest)) (more : List UInt8) :
    read? (bytes ++ more) = some (directive, rest ++ more) := by
  obtain ⟨spelling, greedy, same, rfl⟩ := read?_eq_some_iff.mp read
  exact read?_eq_some_iff.mpr ⟨spelling, greedy, same, List.append_assoc ..⟩

private theorem readPrecision?_eq_none_iff {bytes : List UInt8} :
    readPrecision? bytes = none ↔ bytes = ['.'.toUInt8] := by
  match bytes with
  | [] => simp [readPrecision?]
  | [byte] => simp [readPrecision?]
  | byte :: places :: rest =>
    simp only [readPrecision?]
    split <;> simp

/-- A directive that ends at the point lacks two bytes; any other that is cut short lacks the
specifier alone. -/
private theorem exists_spelling_of_read?_eq_none {bytes : List UInt8} (cut : read? bytes = none) :
    ∃ spelling : Spelling, spelling.Greedy ∧ ∃ missing, missing ≠ [] ∧
      spelling.body = bytes ++ missing := by
  rcases filled : readFill bytes with ⟨fill, afterFill⟩
  rcases widened : readWidth afterFill with ⟨width, afterWidth⟩
  obtain ⟨flag, _, rfl, flagStop⟩ := readFill_eq_iff.mp filled
  obtain ⟨digit, _, rfl, _⟩ := readWidth_eq_iff.mp widened
  have settled : flag = false → digit ≠ some 0 := by
    rintro plain rfl
    exact flagStop plain (by simp [widthBytes, digitByte])
  cases placed : readPrecision? afterWidth with
  | none =>
    obtain rfl := readPrecision?_eq_none_iff.mp placed
    let spelling : Spelling :=
      { flag, width := digit, places := some 'd'.toUInt8, length := .plain, last := 'd'.toUInt8 }
    have letter : spelling.last = Conversion.signed.letter := rfl
    refine ⟨spelling, Spelling.greedy_of_letter letter settled, ['d'.toUInt8, 'd'.toUInt8],
      List.cons_ne_nil _ _, ?_⟩
    simp [spelling, Spelling.body, Spelling.afterFlag, Spelling.afterWidth, Spelling.afterPoint,
      pointBytes, Length.letters]
  | some step =>
    obtain ⟨precision, afterPoint⟩ := step
    obtain ⟨places, _, rfl, _⟩ := readPrecision?_eq_some_iff.mp placed
    rcases sized : readLength afterPoint with ⟨length, afterLength⟩
    cases afterLength with
    | cons byte rest =>
      have read := read?_eq_some_iff_stages.mpr
        ⟨fill, width, precision, length, byte, _, _, _, filled, widened, placed, sized, rfl⟩
      rw [cut] at read
      cases read
    | nil =>
      obtain ⟨rfl, _⟩ := readLength_eq_iff.mp sized
      let spelling : Spelling := { flag, width := digit, places, length, last := 'd'.toUInt8 }
      have letter : spelling.last = Conversion.signed.letter := rfl
      refine ⟨spelling, Spelling.greedy_of_letter letter settled, ['d'.toUInt8],
        List.cons_ne_nil _ _, ?_⟩
      simp [spelling, Spelling.body, Spelling.afterFlag, Spelling.afterWidth, Spelling.afterPoint]

/-- A directive is cut short exactly where bytes are missing from a greedy spelling. -/
theorem read?_eq_none_iff {bytes : List UInt8} :
    read? bytes = none ↔
      ∃ spelling : Spelling, spelling.Greedy ∧ ∃ missing, missing ≠ [] ∧
        spelling.body = bytes ++ missing := by
  refine ⟨exists_spelling_of_read?_eq_none, ?_⟩
  rintro ⟨spelling, greedy, missing, nonempty, body⟩
  cases read : read? bytes with
  | none => rfl
  | some step =>
    -- The directive read from the beginning would leave the missing bytes of the whole one behind.
    have whole : read? (spelling.body ++ []) = some (spelling.directive, []) :=
      read?_eq_some_iff.mpr ⟨spelling, greedy, rfl, rfl⟩
    rw [List.append_nil, body, read?_append read missing] at whole
    have left : step.2 ++ missing = [] := congrArg Prod.snd (Option.some.inj whole)
    exact absurd (List.append_eq_nil_iff.mp left).2 nonempty

end Directive

/-- Whether a text is the beginning of a directive, percent sign included, that lacks its last
bytes. -/
def CutDirective (text : List UInt8) : Prop :=
  text.head? = some '%'.toUInt8 ∧
    ∃ spelling : Spelling, spelling.Greedy ∧ ∃ missing, missing ≠ [] ∧
      spelling.bytes = text ++ missing

namespace Token

/-- The text that a token is read from. -/
inductive Written : Token → List UInt8 → Prop
  | literal {bytes : List UInt8} (nonempty : bytes ≠ []) (clean : '%'.toUInt8 ∉ bytes) :
      Written (.literal bytes) bytes
  | directive {spelling : Spelling} (greedy : spelling.Greedy) :
      Written (.directive spelling.directive) spelling.bytes

private theorem isLiteral_eq_false_iff {byte : UInt8} :
    isLiteral byte = false ↔ byte = '%'.toUInt8 := by
  simp [isLiteral]

/-- A token is read exactly where its text stands and, if it is a literal run, ends. -/
theorem read?_eq_some_iff {body rest : List UInt8} {token : Token} :
    read? body = some (token, rest) ↔
      ∃ text, body = text ++ rest ∧ token.Written text ∧
        (token.isRun = true → ∀ byte ∈ rest.head?, isLiteral byte = false) := by
  constructor
  · intro read
    have stop := head_of_read?_run read
    cases body with
    | nil => cases read
    | cons byte tail =>
      simp only [read?] at read
      split at read
      · next literal =>
        cases read
        refine ⟨_, ?_, .literal (List.cons_ne_nil _ _) (percent_notMem_run literal tail), stop⟩
        rw [List.cons_append, List.takeWhile_append_dropWhile]
      · next percent =>
        obtain ⟨⟨parsed, left⟩, found, same⟩ := Option.map_eq_some_iff.mp read
        cases same
        obtain ⟨spelling, greedy, rfl, rfl⟩ := Directive.read?_eq_some_iff.mp found
        obtain rfl := isLiteral_eq_false_iff.mp (Bool.eq_false_iff.mpr percent)
        exact ⟨spelling.bytes, rfl, .directive greedy, stop⟩
  · rintro ⟨text, rfl, written, stop⟩
    cases written with
    | literal nonempty clean => exact read?_run nonempty clean (stop rfl)
    | directive greedy => exact greedy.read?_bytes rest

/-- No token is read exactly at the end and at the beginning of a directive that is cut short. -/
theorem read?_eq_none_iff_cutDirective {body : List UInt8} :
    read? body = none ↔ body = [] ∨ CutDirective body := by
  rw [read?_eq_none_iff]
  refine or_congr_right ⟨?_, ?_⟩
  · rintro ⟨rest, rfl, cut⟩
    obtain ⟨spelling, greedy, missing, nonempty, body⟩ := Directive.read?_eq_none_iff.mp cut
    exact ⟨rfl, spelling, greedy, missing, nonempty, congrArg ('%'.toUInt8 :: ·) body⟩
  · rintro ⟨percent, spelling, greedy, missing, nonempty, bytes⟩
    obtain ⟨rest, rfl⟩ := List.head?_eq_some_iff.mp percent
    have body : spelling.body = rest ++ missing := List.cons.inj bytes |>.2
    exact ⟨rest, rfl, Directive.read?_eq_none_iff.mpr ⟨spelling, greedy, missing, nonempty, body⟩⟩

end Token

/-- A split of a body into the texts of tokens, in their order, and a remainder. -/
structure Tiling (body : List UInt8) (list : List Token) (texts : List (List UInt8))
    (remainder : List UInt8) : Prop where
  /-- Texts and remainder make up the body. -/
  covers : body = texts.flatten ++ remainder
  /-- There is one text for each token. -/
  written : List.Forall₂ Token.Written list texts
  /-- Behind a literal run comes a percent sign or the end. -/
  maximal : ∀ index bytes, list[index]? = some (.literal bytes) →
    ∀ byte ∈ ((texts.drop (index + 1)).flatten ++ remainder).head?, byte = '%'.toUInt8
  /-- At most the beginning of a directive remains. -/
  remains : remainder = [] ∨ CutDirective remainder

namespace Tiling

variable {body rest text remainder : List UInt8} {token : Token} {list : List Token}
  {texts : List (List UInt8)}

/-- Where nothing can be read, all remains. -/
theorem nil (remains : body = [] ∨ CutDirective body) : Tiling body [] [] body := by
  refine ⟨rfl, .nil, ?_, remains⟩
  intro index bytes found
  simp at found

/-- The text of a token goes in front of a tiling. -/
theorem cons (tiling : Tiling rest list texts remainder) (written : token.Written text)
    (stop : token.isRun = true → ∀ byte ∈ rest.head?, Token.isLiteral byte = false) :
    Tiling (text ++ rest) (token :: list) (text :: texts) remainder := by
  refine ⟨?_, .cons written tiling.written, ?_, tiling.remains⟩
  · rw [List.flatten_cons, List.append_assoc, ← tiling.covers]
  · intro index bytes found byte head
    cases index with
    | zero =>
      obtain rfl : token = .literal bytes := Option.some.inj found
      rw [List.drop_succ_cons, List.drop_zero, ← tiling.covers] at head
      exact Token.isLiteral_eq_false_iff.mp (stop rfl byte head)
    | succ index => exact tiling.maximal index bytes found byte head

/-- Behind its first text, a tiling is a tiling of what is left. -/
theorem tail (tiling : Tiling body (token :: list) (text :: texts) remainder) :
    Tiling (texts.flatten ++ remainder) list texts remainder := by
  refine ⟨rfl, (List.forall₂_cons.mp tiling.written).2, ?_, tiling.remains⟩
  intro index bytes found
  exact tiling.maximal (index + 1) bytes found

private theorem read?_eq (tiling : Tiling body (token :: list) (text :: texts) remainder) :
    Token.read? body = some (token, texts.flatten ++ remainder) := by
  refine Token.read?_eq_some_iff.mpr
    ⟨text, ?_, (List.forall₂_cons.mp tiling.written).1, ?_⟩
  · rw [tiling.covers, List.flatten_cons, List.append_assoc]
  · intro run byte head
    cases token with
    | literal bytes =>
      exact Token.isLiteral_eq_false_iff.mpr (tiling.maximal 0 bytes rfl byte head)
    | directive parsed => cases run

/-- The tokens of a tiling are those that scanning finds. -/
theorem scan_eq (tiling : Tiling body list texts remainder) : Token.scan body = list := by
  induction list generalizing body texts with
  | nil =>
    obtain rfl := List.forall₂_nil_left_iff.mp tiling.written
    have same : body = remainder := tiling.covers
    rw [Token.scan_of_read?_eq_none]
    rw [same]
    exact Token.read?_eq_none_iff_cutDirective.mpr tiling.remains
  | cons token list ih =>
    obtain ⟨text, texts, _, _, rfl⟩ := List.forall₂_cons_left_iff.mp tiling.written
    rw [Token.scan_of_read?_eq_some tiling.read?_eq, ih tiling.tail]

end Tiling

/-- Every body is tiled by the tokens that scanning finds. -/
theorem exists_tiling (body : List UInt8) :
    ∃ texts remainder, Tiling body (Token.scan body) texts remainder := by
  fun_induction Token.scan body with
  | case1 body missing =>
    exact ⟨[], body, .nil (Token.read?_eq_none_iff_cutDirective.mp missing)⟩
  | case2 body token rest read ih =>
    obtain ⟨texts, remainder, tiling⟩ := ih
    obtain ⟨text, rfl, written, stop⟩ := Token.read?_eq_some_iff.mp read
    exact ⟨text :: texts, remainder, tiling.cons written stop⟩

/-- The body of a format, up to the first zero byte, is tiled by its tokens and by no other list.
What follows the body has no influence. -/
theorem tokens_tile_body (format : List UInt8) :
    (∀ list, (∃ texts remainder, Tiling (untilNul format) list texts remainder) ↔
      list = tokens format) ∧
    ∀ tail, tokens (untilNul format ++ 0 :: tail) = tokens format := by
  constructor
  · intro list
    constructor
    · rintro ⟨texts, remainder, tiling⟩
      exact tiling.scan_eq.symm
    · rintro rfl
      exact exists_tiling (untilNul format)
  · intro tail
    have clean : 0 ∉ untilNul format := fun zero => ne_zero_of_mem_untilNul zero rfl
    rw [tokens, untilNul_append clean, untilNul_zero_cons, List.append_nil]
    rfl

end ByteFormat
