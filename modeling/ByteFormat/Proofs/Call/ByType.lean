import ByteFormat.Proofs.Call.Delivery

/-! # Arguments by slot and arguments by type

An operand becomes an argument in two ways: a slot casts it to the kind that its directive fetches,
and without a slot the operand's own type chooses the kind. The kinds differ, and so may the widths.
For operands of the types that both ways take, however, no fetch of the slot's directive tells the
two arguments apart, and a call prints what its format prints with the operands converted by their
types (`accepted_call_prints_by_type`).
-/

namespace ByteFormat

private theorem narrow_congr {signed : Bool} {bits : Nat} {value other : Int} (word : 0 < bits)
    (congruent : value ≡ other [ZMOD 2 ^ bits]) :
    narrow signed bits value = narrow signed bits other := by
  obtain ⟨same, inside⟩ := (eq_narrow_iff word).mp (rfl : narrow signed bits value = _)
  exact (eq_narrow_iff word).mpr ⟨same.trans congruent, inside⟩

private theorem Binary64.ofInt_natCast (value : Nat) : ofInt value = ofNat value := by
  have nonneg : ¬ (value : Int) < 0 := by omega
  rw [ofInt, ofNat, decide_eq_false nonneg, Int.natAbs_natCast]

namespace Argument

variable {first second : Argument} {value other : Int}

/-- Integer arguments that agree on the bits of a word are fetched alike. -/
theorem integer_congr (left : first.value? = some value) (right : second.value? = some other)
    {length : Length} (congruent : value ≡ other [ZMOD 2 ^ length.bits]) (profile : Profile)
    (signed : Bool) :
    first.integer profile length signed = second.integer profile length signed := by
  have same (signed : Bool) : narrow signed length.bits value = narrow signed length.bits other :=
    narrow_congr length.bits_pos congruent
  have signedValue : first.signedValue length = second.signedValue length := by
    apply Int64.toInt_inj.mp
    rw [toInt_signedValue left, toInt_signedValue right, same]
  have unsignedValue : first.unsignedValue length = second.unsignedValue length := by
    apply UInt64.toNat_inj.mp
    apply Int.ofNat_inj.mp
    exact (toNat_unsignedValue left length).trans
      ((same false).trans (toNat_unsignedValue right length).symm)
  exact integer_of_values signedValue unsignedValue profile signed

/-- Integer arguments that agree on their last byte give that byte. -/
theorem byte_congr (left : first.value? = some value) (right : second.value? = some other)
    (congruent : value ≡ other [ZMOD 256]) : first.byte = second.byte := by
  apply UInt8.toNat_inj.mp
  apply Int.ofNat_inj.mp
  exact (toNat_byte left).trans (Eq.trans congruent (toNat_byte right).symm)

/-- An integer argument is fetched as the double nearest to its value. -/
theorem toBinary64_of_value (integral : first.value? = some value) :
    first.toBinary64 = .ofInt value := by
  cases first with
  | int small => cases integral; rfl
  | long wide | longLong wide => cases integral; rfl
  | uint small => cases integral; exact (Binary64.ofInt_natCast _).symm
  | ulong wide | ulongLong wide | pointer wide =>
    cases integral
    exact (Binary64.ofInt_natCast _).symm
  | double real => cases integral
  | text located => cases integral

end Argument

namespace Call

namespace Number

private theorem signedValue_modEq (length : Length) (value : Int) :
    (integer value).signedValue length ≡ value [ZMOD 2 ^ length.bits] := by
  cases length with
  | plain =>
    have cast : (integer value).signedValue .plain = value.bmod (2 ^ 32) := Int32.toInt_ofInt
    rw [cast]
    exact Int.bmod_emod
  | long | longLong =>
    have cast : (integer value).toInt64.toInt = value.bmod (2 ^ 64) := Int64.toInt_ofInt
    rw [signedValue, cast]
    exact Int.bmod_emod

/-- Going through the widest signed word keeps the bits of an unsigned word. -/
private theorem unsignedValue_modEq (length : Length) (value : Int) :
    (integer value).unsignedValue length ≡ value [ZMOD 2 ^ length.bits] := by
  have wide : (integer value).toInt64.toInt ≡ value [ZMOD 2 ^ 64] :=
    signedValue_modEq .longLong value
  have divides : (2 : Int) ^ length.bits ∣ 2 ^ 64 := by cases length <;> decide
  exact (Int.mod_modEq _ _).trans (wide.of_dvd divides)

end Number

namespace Operand

/-- Whether the operand is of an integer type of at most 64 bits. -/
def isInteger : Operand → Bool
  | .int8 _ | .int16 _ | .int32 _ | .int64 _ | .intWord _ => true
  | .uint8 _ | .uint16 _ | .uint32 _ | .uint64 _ | .uintWord _ => true
  | _ => false

def isChar : Operand → Bool
  | .char _ => true
  | _ => false

def isFloat : Operand → Bool
  | .single _ | .double _ => true
  | _ => false

/-- Whether the operand is a word or a raw pointer. -/
def isAddress : Operand → Bool
  | .uintWord _ | .pointer _ => true
  | _ => false

private theorem exists_value_of_isInteger {operand : Operand}
    (integral : operand.isInteger = true) :
    ∃ value argument, operand.number? = some (.integer value) ∧
      operand.scalar? = some (.integer value) ∧
      operand.toArgument? = some argument ∧ argument.value? = some value := by
  cases operand with
  | int8 small | int16 small =>
    exact ⟨_, _, rfl, rfl, rfl, by simp [Argument.value?]⟩
  | int32 small => exact ⟨_, _, rfl, rfl, rfl, rfl⟩
  | int64 wide | intWord wide => exact ⟨_, _, rfl, rfl, rfl, rfl⟩
  | uint8 small | uint16 small =>
    exact ⟨_, _, rfl, rfl, rfl, by simp [Argument.value?]⟩
  | uint32 small => exact ⟨_, _, rfl, rfl, rfl, rfl⟩
  | uint64 wide | uintWord wide => exact ⟨_, _, rfl, rfl, rfl, rfl⟩
  | _ => cases integral

private theorem exists_value_of_isChar {operand : Operand} (char : operand.isChar = true) :
    ∃ value argument, operand.scalar? = some (.integer value) ∧
      operand.toArgument? = some argument ∧ argument.value? = some value := by
  cases operand with
  | char letter =>
    refine ⟨_, _, rfl, rfl, ?_⟩
    have below : letter.toNat < 0x110000 := by
      rcases letter.valid with low | ⟨_, high⟩
      · exact low.trans (by decide)
      · exact high
    have fits : (Int32.ofInt letter.toNat).toInt = letter.toNat :=
      Int32.toInt_ofInt_of_le (by omega) (by omega)
    exact congrArg some fits
  | _ => cases char

end Operand

namespace Slot

/-- Whether a slot takes an operand of a type that also chooses an argument by itself. -/
def takesByType (slot : Slot) (operand : Operand) : Bool :=
  match slot with
  | .char | .signed _ | .unsigned _ => operand.isInteger || operand.isChar
  | .float => operand.isInteger || operand.isFloat
  | .text => operand.text?.isSome
  | .pointer => operand.isAddress

/-- Whether the fetch of a slot's directive yields the same for two arguments. -/
def FetchesAlike (slot : Slot) (first second : Argument) : Prop :=
  match slot with
  | .char => first.byte = second.byte
  | .text => first.string = second.string
  | .float => first.toBinary64 = second.toBinary64
  | .pointer =>
      ∀ profile, first.integer profile .longLong false = second.integer profile .longLong false
  | .signed length =>
      ∀ profile, first.integer profile length true = second.integer profile length true
  | .unsigned length =>
      ∀ profile, first.integer profile length false = second.integer profile length false

/-- A slot's cast and the operand's type lead to arguments that are fetched alike. -/
theorem fetchesAlike_of_takesByType {slot : Slot} {operand : Operand}
    (takes : slot.takesByType operand = true) :
    ∃ cast typed, slot.wrap? operand = some cast ∧ operand.toArgument? = some typed ∧
      slot.FetchesAlike cast typed := by
  have scalar (numeric : (operand.isInteger || operand.isChar) = true) :
      ∃ value argument, operand.scalar? = some (.integer value) ∧
        operand.toArgument? = some argument ∧ argument.value? = some value := by
    rcases Bool.or_eq_true_iff.mp numeric with integral | char
    · obtain ⟨value, argument, _, found⟩ := Operand.exists_value_of_isInteger integral
      exact ⟨value, argument, found⟩
    · exact Operand.exists_value_of_isChar char
  cases slot with
  | char =>
    obtain ⟨value, typed, found, byType, integral⟩ := scalar takes
    refine ⟨_, typed, by rw [wrap?_char, found]; rfl, byType, ?_⟩
    have low := (Number.signedValue_modEq .plain value).of_dvd (by decide : (256 : Int) ∣ 2 ^ 32)
    exact Argument.byte_congr rfl integral low
  | signed length =>
    obtain ⟨value, typed, found, byType, integral⟩ := scalar takes
    refine ⟨_, typed, by rw [wrap?_signed, found]; rfl, byType, fun profile => ?_⟩
    exact Argument.integer_congr (Number.value?_signedArgument length _) integral
      (Number.signedValue_modEq length value) profile true
  | unsigned length =>
    obtain ⟨value, typed, found, byType, integral⟩ := scalar takes
    refine ⟨_, typed, by rw [wrap?_unsigned, found]; rfl, byType, fun profile => ?_⟩
    exact Argument.integer_congr (Number.value?_unsignedArgument length _) integral
      (Number.unsignedValue_modEq length value) profile false
  | float =>
    rcases Bool.or_eq_true_iff.mp takes with integral | float
    · obtain ⟨value, typed, found, _, byType, integral⟩ :=
        Operand.exists_value_of_isInteger integral
      refine ⟨_, typed, by rw [wrap?_float, found]; rfl, byType, ?_⟩
      exact (Argument.toBinary64_of_value integral).symm
    · cases operand with
      | single | double => exact ⟨_, _, rfl, rfl, rfl⟩
      | _ => cases float
  | text =>
    cases operand with
    | text located => exact ⟨_, _, rfl, rfl, rfl⟩
    | _ => cases takes
  | pointer =>
    cases operand with
    | uintWord | pointer => exact ⟨_, _, rfl, rfl, fun profile => rfl⟩
    | _ => cases takes

end Slot

section

variable {σ : Type} [Sink σ] {directive : Directive} {conversion : Conversion}
  {first second : Argument} {profile : Profile}

/-- A directive writes the same for arguments that its slot fetches alike. -/
theorem write_congr
    (alike : (Slot.ofConversion directive.length conversion).FetchesAlike first second) (sink : σ) :
    directive.write profile conversion first sink =
      directive.write profile conversion second sink := by
  apply Directive.write_of_fetch
  cases conversion with
  | char => exact congrArg Fetch.byte alike
  | text => exact congrArg Fetch.text alike
  | float => exact congrArg Fetch.double alike
  | pointer | signed | unsigned | hex | binary => exact congrArg Fetch.integer (alike profile)

/-- Tokens print and report the same for arguments that their slots fetch alike, each in its
place. -/
theorem traceTokens_congr (report : σ → Degradation → σ) {list : List Token}
    {pairs : List (Argument × Argument)}
    (alike : List.Forall₂
      (fun slot (pair : Argument × Argument) => Slot.FetchesAlike slot pair.1 pair.2)
      (list.filterMap Slot.ofToken?) pairs) (state : σ) :
    traceTokens report profile list (pairs.map Prod.fst) state =
      traceTokens report profile list (pairs.map Prod.snd) state := by
  induction list generalizing pairs state with
  | nil => rfl
  | cons token rest ih =>
    cases token with
    | literal bytes => exact ih alike (Sink.writeBytes state bytes)
    | directive directive =>
      cases specifier : directive.specifier with
      | echo byte =>
        have closed : Slot.ofToken? (.directive directive) = none := by
          rw [Slot.ofToken?, specifier, Slot.ofSpecifier?]
        rw [List.filterMap_cons_none closed] at alike
        simp only [traceTokens, specifier, ih alike]
      | convert conversion =>
        have opened : Slot.ofToken? (.directive directive) =
            some (.ofConversion directive.length conversion) := by
          rw [Slot.ofToken?, specifier, Slot.ofSpecifier?]
        rw [List.filterMap_cons_some opened] at alike
        cases alike with
        | cons front others =>
          simp only [List.map_cons, traceTokens, specifier, write_congr front, ih others]

end

/-- Operands that slots take by type become arguments in both ways, and each slot fetches the two
arguments in its place alike. -/
private theorem exists_pairs {slots : List Slot} {operands : List Operand}
    (count : operands.length = slots.length)
    (typed : ∀ pair ∈ slots.zip operands, pair.1.takesByType pair.2 = true) :
    ∃ pairs : List (Argument × Argument),
      (slots.zip operands).mapM (fun (slot, operand) => slot.wrap? operand) =
        some (pairs.map Prod.fst) ∧
      operands.mapM Operand.toArgument? = some (pairs.map Prod.snd) ∧
      List.Forall₂ (fun slot pair => slot.FetchesAlike pair.1 pair.2) slots pairs := by
  induction slots generalizing operands with
  | nil =>
    obtain rfl := List.length_eq_zero_iff.mp count
    exact ⟨[], rfl, rfl, .nil⟩
  | cons slot slots ih =>
    obtain ⟨operand, operands, rfl⟩ := List.exists_cons_of_length_eq_add_one count
    have takes : slot.takesByType operand = true := typed (slot, operand) (List.mem_cons_self ..)
    obtain ⟨cast, byType, wrapped, chosen, alike⟩ := Slot.fetchesAlike_of_takesByType takes
    obtain ⟨pairs, casts, choices, others⟩ :=
      ih (Nat.succ.inj count) fun pair member => typed pair (List.mem_cons_of_mem _ member)
    refine ⟨(cast, byType) :: pairs, ?_, ?_, .cons alike others⟩
    · simp only [List.map_cons, List.zip_cons_cons, List.mapM_cons, wrapped, casts]
      rfl
    · simp only [List.map_cons, List.mapM_cons, chosen, choices]
      rfl

/-- An accepted call whose operands have types that their slots take, and that choose arguments by
themselves, prints what its format prints with these arguments, on every sink and in every build.
Each slot fetches the same from its cast operand and from the argument chosen by type. -/
theorem accepted_call_prints_by_type {form : Form} {format : List UInt8} {operands : List Operand}
    {expansion : Expansion Operand} (accepted : expand form format operands = .ok expansion)
    (typed : ∀ pair ∈ expansion.arguments, pair.1.takesByType pair.2 = true) :
    ∃ pairs : List (Argument × Argument),
      expansion.wrapped? = some (pairs.map Prod.fst) ∧
      operands.mapM Operand.toArgument? = some (pairs.map Prod.snd) ∧
      List.Forall₂ (fun slot pair => slot.FetchesAlike pair.1 pair.2)
        (expansion.arguments.map Prod.fst) pairs ∧
      ∀ {σ : Type} [Sink σ] (profile : Profile) (sink : σ),
        expansion.print? profile sink =
          some (print profile (form.complete format) (pairs.map Prod.snd) sink) := by
  obtain ⟨slots, found, count, paired⟩ := expand_eq_ok accepted
  rw [paired] at typed
  obtain ⟨pairs, casts, chosen, alike⟩ := exists_pairs count typed
  have wrapped : expansion.wrapped? = some (pairs.map Prod.fst) := by
    rw [Expansion.wrapped?, paired, casts]
  refine ⟨pairs, wrapped, chosen, ?_, ?_⟩
  · rw [paired, List.map_fst_zip count.ge]
    exact alike
  · intro σ _ profile sink
    obtain rfl := eq_filterMap_of_slots? found
    rw [Expansion.print?, wrapped, Option.map_some, ← format_of_expand accepted, print, print,
      printTokens, printTokens, traceTokens_congr _ alike]

/-- Under `%lx%c%p` the casts make a long word, an int and a pointer of operands that their types
make two ints and a wide word, and the output is the same. -/
theorem accepted_call_prints_by_type_mixed :
    ∃ expansion : Expansion Operand,
      expand .plain (utf8 "%lx%c%p") [.int8 (-1), .char 'A', .uintWord 4096] = .ok expansion ∧
      expansion.wrapped? = some [.ulong 18446744073709551615, .int 65, .pointer 4096] ∧
      ∀ profile, expansion.print? profile Collector.empty =
        some (print profile (utf8 "%lx%c%p") [.int (-1), .int 65, .ulongLong 4096]
          Collector.empty) := by
  have accepted : expand .plain (utf8 "%lx%c%p")
      [Operand.int8 (-1), .char 'A', .uintWord 4096] =
      .ok { format := utf8 "%lx%c%p"
            arguments := [(.unsigned .long, .int8 (-1)), (.char, .char 'A'),
              (.pointer, .uintWord 4096)] } := by
    decide
  obtain ⟨pairs, _, chosen, _, prints⟩ := accepted_call_prints_by_type accepted (by decide)
  have byType : pairs.map Prod.snd = [.int (-1), .int 65, .ulongLong 4096] :=
    Option.some.inj (chosen.symm.trans (by decide))
  refine ⟨_, accepted, by decide, fun profile => ?_⟩
  rw [prints profile Collector.empty, byType]
  rfl

end Call

end ByteFormat
