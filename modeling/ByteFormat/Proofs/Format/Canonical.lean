import ByteFormat.Proofs.Format.Spelling
import Mathlib.Data.List.Chain

/-! # Canonical formats

A list of tokens is encoded by writing literal runs as they are and directives with all their parts,
a precision always among them. A list is normal when it is a possible outcome of reading: literal
runs are not empty, hold neither percent signs nor zero bytes and are never adjacent, and the parts
of directives are in range. Reading inverts the encoding on exactly the normal lists, and yields
normal lists only (`tokens_encode_iff_normal`).
-/

namespace ByteFormat

namespace Directive

/-- The written form of a directive that leaves out no precision. -/
def encode (directive : Directive) : List UInt8 :=
  '%'.toUInt8 ::
    ((if directive.padding.fill = '0'.toUInt8 then ['0'.toUInt8] else []) ++
      (if 0 < directive.padding.width then [digitByte directive.padding.width] else []) ++
      ['.'.toUInt8, digitByte directive.precision] ++ directive.length.letters ++
      [directive.specifier.byte])

/-- Whether a directive can be the outcome of reading one. -/
structure Normal (directive : Directive) : Prop where
  fill : directive.padding.fill = ' '.toUInt8 ∨ directive.padding.fill = '0'.toUInt8
  width : directive.padding.width ≤ 9
  precision : directive.precision ≤ 9
  specifier : ∃ byte, byte ≠ 0 ∧ directive.specifier = .ofByte byte
  length : directive.specifier = .echo 'l'.toUInt8 → directive.length = .longLong

end Directive

namespace Token

def encode : Token → List UInt8
  | .literal bytes => bytes
  | .directive parsed => parsed.encode

def isRun : Token → Bool
  | .literal _ => true
  | .directive _ => false

def Normal : Token → Prop
  | .literal bytes => bytes ≠ [] ∧ '%'.toUInt8 ∉ bytes ∧ 0 ∉ bytes
  | .directive parsed => parsed.Normal

end Token

def encode (list : List Token) : List UInt8 :=
  list.flatMap Token.encode

/-- Whether a list of tokens can be the outcome of reading a format. -/
structure NormalTokens (list : List Token) : Prop where
  each : ∀ token ∈ list, token.Normal
  apart : list.IsChain fun first second => ¬ (first.isRun = true ∧ second.isRun = true)

private theorem normalTokens_cons_iff {token : Token} {rest : List Token} :
    NormalTokens (token :: rest) ↔
      token.Normal ∧ (token.isRun = true → ∀ next ∈ rest.head?, next.isRun = false) ∧
        NormalTokens rest := by
  constructor
  · rintro ⟨each, apart⟩
    obtain ⟨stop, apart⟩ := List.isChain_cons.mp apart
    refine ⟨each token (List.mem_cons_self ..), ?_,
      fun other member => each other (List.mem_cons_of_mem _ member), apart⟩
    intro run next head
    exact Bool.eq_false_iff.mpr fun again => stop next head ⟨run, again⟩
  · rintro ⟨first, stop, each, apart⟩
    refine ⟨List.forall_mem_cons.mpr ⟨first, each⟩, List.isChain_cons.mpr ⟨?_, apart⟩⟩
    rintro next head ⟨run, again⟩
    rw [stop run next head] at again
    cases again

namespace Directive

/-- The spelling that leaves out no precision, and the flag and the width only where they say
nothing. -/
def spelling (directive : Directive) (width : directive.padding.width ≤ 9) : Spelling where
  flag := directive.padding.fill == '0'.toUInt8
  width :=
    if 0 < directive.padding.width then some ⟨directive.padding.width, Nat.lt_succ_of_le width⟩
    else none
  places := some (digitByte directive.precision)
  length := directive.length
  last := directive.specifier.byte

private theorem encode_eq_spelling (directive : Directive) (width : directive.padding.width ≤ 9) :
    directive.encode = (directive.spelling width).bytes := by
  by_cases fill : directive.padding.fill = '0'.toUInt8 <;>
    by_cases wide : 0 < directive.padding.width <;>
      simp [encode, spelling, fill, wide, Spelling.bytes, Spelling.body, Spelling.afterFlag,
        Spelling.afterWidth, Spelling.afterPoint, flagBytes, widthBytes, pointBytes]

namespace Normal

variable {directive : Directive}

/-- Only the length letter itself could be taken for a part that is left out. -/
private theorem greedy_spelling (normal : directive.Normal) :
    (directive.spelling normal.width).Greedy := by
  refine ⟨?_, ?_, nofun, ?_⟩
  -- Behind the flag comes a digit that is not zero, or the point.
  · intro _ zero
    by_cases wide : 0 < directive.padding.width
    · simp only [spelling, Spelling.afterFlag, if_pos wide, widthBytes, List.cons_append,
        List.head?_cons, Option.some.injEq] at zero
      have nonzero : (⟨directive.padding.width, Nat.lt_succ_of_le normal.width⟩ : Fin 10) ≠ 0 :=
        fun same => wide.ne' (congrArg Fin.val same)
      exact Spelling.digitByte_ne_flag _ nonzero zero
    · simp only [spelling, Spelling.afterFlag, if_neg wide, widthBytes, Spelling.afterWidth,
        pointBytes, List.nil_append, List.cons_append, List.head?_cons, Option.some.injEq] at zero
      exact absurd zero (by decide)
  · intro _
    simp only [spelling, Spelling.afterWidth, pointBytes, List.cons_append, List.head?_cons,
      Option.bind_some]
    decide
  · intro shorter letter
    obtain ⟨byte, _, same⟩ := normal.specifier
    have last : byte = 'l'.toUInt8 := by
      rw [← Specifier.byte_ofByte byte, ← same]
      exact letter
    have echoed : directive.specifier = .echo 'l'.toUInt8 := by
      rw [same, last]
      rfl
    exact shorter (normal.length echoed)

private theorem directive_spelling (normal : directive.Normal) :
    (directive.spelling normal.width).directive = directive := by
  have specifier :
      Specifier.ofByte (directive.spelling normal.width).last = directive.specifier := by
    obtain ⟨byte, _, same⟩ := normal.specifier
    rw [spelling, same, Specifier.byte_ofByte]
  have fill : (directive.spelling normal.width).fill = directive.padding.fill := by
    rw [normal.greedy_spelling.fill_eq]
    rcases normal.fill with blank | zero
    · have unset : (directive.spelling normal.width).flag = false := by
        simp only [spelling, blank]
        decide
      rw [unset, blank]
      rfl
    · simp [spelling, zero]
  have columns : (directive.spelling normal.width).columns = directive.padding.width := by
    by_cases wide : 0 < directive.padding.width
    · simp [Spelling.columns, spelling, wide]
    · simp only [Spelling.columns, spelling, if_neg wide, Option.elim_none]
      omega
  have precision : ((directive.spelling normal.width).places.bind digit?).getD 0 =
      directive.precision := by
    have digit := digit?_digitByte ⟨directive.precision, Nat.lt_succ_of_le normal.precision⟩
    simp only [spelling, Option.bind_some, digit, Option.getD_some]
  rw [Spelling.directive, specifier, fill, columns, precision]
  rfl

/-- The written form of a normal directive reads as the directive, whatever follows. -/
theorem read?_encode (normal : directive.Normal) (rest : List UInt8) :
    Token.read? (directive.encode ++ rest) = some (.directive directive, rest) := by
  have read := normal.greedy_spelling.read?_bytes rest
  rw [normal.directive_spelling] at read
  rw [encode_eq_spelling _ normal.width, read]

private theorem zero_notMem_encode (normal : directive.Normal) : 0 ∉ directive.encode := by
  rw [encode_eq_spelling _ normal.width]
  apply Spelling.zero_notMem_bytes
  · obtain ⟨byte, nonzero, same⟩ := normal.specifier
    rw [spelling, same, Specifier.byte_ofByte]
    exact nonzero
  · intro zero
    have digit := digitByte_ne_zero ⟨directive.precision, Nat.lt_succ_of_le normal.precision⟩
    exact digit (Option.some.inj zero)

end Normal

end Directive

namespace Token

private theorem Normal.zero_notMem_encode {token : Token} (normal : token.Normal) :
    0 ∉ token.encode := by
  cases token with
  | literal bytes => exact normal.2.2
  | directive parsed => exact Directive.Normal.zero_notMem_encode normal

theorem isLiteral_of_notMem {bytes : List UInt8} (clean : '%'.toUInt8 ∉ bytes) :
    ∀ byte ∈ bytes, isLiteral byte = true := by
  intro byte member
  exact bne_iff_ne.mpr fun percent => clean (percent ▸ member)

theorem percent_notMem_run {byte : UInt8} (literal : isLiteral byte = true) (tail : List UInt8) :
    '%'.toUInt8 ∉ byte :: tail.takeWhile isLiteral := by
  intro percent
  have kept : ∀ other ∈ byte :: tail.takeWhile isLiteral, isLiteral other = true :=
    List.forall_mem_cons.mpr ⟨literal, List.all_eq_true.mp List.all_takeWhile⟩
  exact absurd (kept _ percent) (by decide)

/-- A run of literal bytes is read whole if a percent sign or nothing follows it. -/
theorem read?_run {bytes rest : List UInt8} (nonempty : bytes ≠ []) (clean : '%'.toUInt8 ∉ bytes)
    (stop : ∀ byte ∈ rest.head?, isLiteral byte = false) :
    read? (bytes ++ rest) = some (.literal bytes, rest) := by
  obtain ⟨byte, tail, rfl⟩ := List.exists_cons_of_ne_nil nonempty
  have literal := isLiteral_of_notMem clean
  have first := literal byte (List.mem_cons_self ..)
  have later : ∀ other ∈ tail, isLiteral other = true :=
    fun other member => literal other (List.mem_cons_of_mem _ member)
  have taken : rest.takeWhile isLiteral = [] := by
    cases rest with
    | nil => rfl
    | cons next rest => simp [stop next rfl]
  have left : rest.dropWhile isLiteral = rest := by
    cases rest with
    | nil => rfl
    | cons next rest => simp [stop next rfl]
  rw [List.cons_append, read?, if_pos first, List.takeWhile_append_of_pos later,
    List.dropWhile_append_of_pos later, taken, left, List.append_nil]

private theorem isRun_of_read? {byte : UInt8} {tail rest : List UInt8} {token : Token}
    (read : read? (byte :: tail) = some (token, rest)) : token.isRun = isLiteral byte := by
  cases literal : isLiteral byte with
  | true =>
    rw [read?, if_pos literal] at read
    cases read
    rfl
  | false =>
    rw [read?, if_neg (Bool.eq_false_iff.mp literal)] at read
    obtain ⟨⟨parsed, left⟩, _, same⟩ := Option.map_eq_some_iff.mp read
    cases same
    rfl

/-- A literal run ends at a percent sign or at the end. -/
theorem head_of_read?_run {body rest : List UInt8} {token : Token}
    (read : read? body = some (token, rest)) (run : token.isRun = true) :
    ∀ byte ∈ rest.head?, isLiteral byte = false := by
  cases body with
  | nil => cases read
  | cons byte tail =>
    have literal : isLiteral byte = true := (isRun_of_read? read).symm.trans run
    rw [read?, if_pos literal] at read
    cases read
    intro next head
    have stop := List.head?_dropWhile_not isLiteral tail
    rw [head] at stop
    exact stop

private theorem isRun_of_mem_head?_scan {body : List UInt8}
    (stop : ∀ byte ∈ body.head?, isLiteral byte = false) :
    ∀ token ∈ (scan body).head?, token.isRun = false := by
  intro token head
  cases read : read? body with
  | none =>
    rw [scan_of_read?_eq_none read] at head
    cases head
  | some step =>
    obtain ⟨first, rest⟩ := step
    rw [scan_of_read?_eq_some read] at head
    cases head
    cases body with
    | nil => cases read
    | cons byte tail => exact (isRun_of_read? read).trans (stop byte rfl)

theorem normal_of_read? {body rest : List UInt8} {token : Token} (clean : 0 ∉ body)
    (read : read? body = some (token, rest)) : token.Normal := by
  cases body with
  | nil => cases read
  | cons byte tail =>
    simp only [read?] at read
    split at read
    · next literal =>
      cases read
      have part : byte :: tail.takeWhile isLiteral <+: byte :: tail :=
        List.cons_prefix_cons.mpr ⟨rfl, List.takeWhile_prefix isLiteral⟩
      exact ⟨List.cons_ne_nil _ _, percent_notMem_run literal tail,
        fun zero => clean (part.subset zero)⟩
    · obtain ⟨⟨parsed, left⟩, found, same⟩ := Option.map_eq_some_iff.mp read
      cases same
      obtain ⟨spelling, greedy, rfl, rfl⟩ := Directive.read?_eq_some_iff.mp found
      refine ⟨spelling.fill_eq_or, spelling.columns_le, spelling.precision_le,
        ⟨spelling.last, ?_, rfl⟩, ?_⟩
      · intro zero
        apply clean
        simp [Spelling.body, Spelling.afterFlag, Spelling.afterWidth, Spelling.afterPoint, zero]
      · intro echoed
        by_contra shorter
        apply greedy.length shorter
        rw [← Specifier.byte_ofByte spelling.last]
        exact congrArg Specifier.byte echoed

theorem normalTokens_scan {body : List UInt8} (clean : 0 ∉ body) : NormalTokens (scan body) := by
  fun_induction scan body with
  | case1 body missing => exact ⟨nofun, .nil⟩
  | case2 body token rest read ih =>
    have suffix := read?_suffix read
    refine normalTokens_cons_iff.mpr ⟨normal_of_read? clean read, ?_, ih ?_⟩
    -- A run is maximal, so what it leaves starts with a directive or is empty.
    · intro run
      exact isRun_of_mem_head?_scan (head_of_read?_run read run)
    · exact fun zero => clean (suffix.subset zero)

end Token

/-- Behind a literal run of a normal list comes a percent sign or nothing. -/
private theorem head_encode {list : List Token} (stop : ∀ token ∈ list.head?, token.isRun = false) :
    ∀ byte ∈ (encode list).head?, Token.isLiteral byte = false := by
  cases list with
  | nil => nofun
  | cons token rest =>
    have directive := stop token rfl
    cases token with
    | literal bytes => cases directive
    | directive parsed =>
      intro byte head
      cases head
      rfl

/-- Scanning the written form of a normal list gives the list back. -/
theorem scan_encode {list : List Token} (normal : NormalTokens list) :
    Token.scan (encode list) = list := by
  induction list with
  | nil => exact Token.scan_nil
  | cons token rest ih =>
    obtain ⟨first, stop, remaining⟩ := normalTokens_cons_iff.mp normal
    have read : Token.read? (token.encode ++ encode rest) = some (token, encode rest) := by
      cases token with
      | literal bytes => exact Token.read?_run first.1 first.2.1 (head_encode (stop rfl))
      | directive parsed => exact Directive.Normal.read?_encode first (encode rest)
    rw [encode, List.flatMap_cons, ← encode, Token.scan_of_read?_eq_some read, ih remaining]

theorem tokens_encode {list : List Token} (normal : NormalTokens list) :
    tokens (encode list) = list := by
  have clean : ∀ byte ∈ encode list, byte ≠ 0 := by
    rintro byte member rfl
    obtain ⟨token, listed, zero⟩ := List.mem_flatMap.mp member
    exact (normal.each token listed).zero_notMem_encode zero
  rw [tokens, untilNul_eq_self clean, scan_encode normal]

theorem normalTokens_tokens (format : List UInt8) : NormalTokens (tokens format) :=
  Token.normalTokens_scan fun zero => ne_zero_of_mem_untilNul zero rfl

/-- Reading inverts the encoding of a list of tokens exactly if the list is normal, and reading any
format gives a normal list. -/
theorem tokens_encode_iff_normal :
    (∀ list, tokens (encode list) = list ↔ NormalTokens list) ∧
      ∀ format, NormalTokens (tokens format) := by
  refine ⟨fun list => ⟨?_, tokens_encode⟩, normalTokens_tokens⟩
  intro same
  rw [← same]
  exact normalTokens_tokens (encode list)

end ByteFormat
