import ByteFormat.Log.Hub
import ByteFormat.Proofs.Print.Composition

/-! # What printing traces

A program that logs degradations does so while it prints: at the directive in question, before
anything is written for it. Where output and log are kept apart, tracing is printing followed by
logging, so no log and no level can change what is written. The records are those that are due, one
for each echoed byte and one for each conversion beyond the last argument
(`trace_records_what_is_due`).
-/

namespace ByteFormat

/-- The degradation due at a token when so many arguments are supplied and the conversions in front
of it are so many. -/
def Token.due? (supplied earlier : Nat) : Token → Option Degradation
  | .literal _ => none
  | .directive parsed =>
      match parsed.specifier with
      | .echo byte => some (.unrecognized byte)
      | .convert conversion => if supplied ≤ earlier then some (.unsupplied conversion) else none

/-- The degradations due at tokens when so many arguments are supplied. -/
def due (list : List Token) (supplied : Nat) : List Degradation :=
  list.zipIdx.filterMap fun (token, position) =>
    token.due? supplied (demand (list.take position))

private theorem demand_cons (token : Token) (rest : List Token) :
    demand (token :: rest) = demand [token] + demand rest := by
  rw [demand, demand, demand, ← List.length_append, ← List.filterMap_append, List.singleton_append]

/-- Behind a token, what is due depends on the arguments that it leaves over. -/
private theorem due_cons (token : Token) (rest : List Token) (supplied : Nat) :
    due (token :: rest) supplied =
      (token.due? supplied 0).toList ++ due rest (supplied - demand [token]) := by
  have later : (rest.zipIdx 1).filterMap (fun (next, position) =>
        next.due? supplied (demand ((token :: rest).take position))) =
      due rest (supplied - demand [token]) := by
    rw [List.zipIdx_succ, List.filterMap_map, due]
    congr 1
    funext ⟨next, position⟩
    have bound : supplied ≤ demand ((token :: rest).take (position + 1)) ↔
        supplied - demand [token] ≤ demand (rest.take position) := by
      rw [List.take_succ_cons, demand_cons]
      omega
    simp only [Function.comp_apply, Token.due?, bound]
  have front : demand ((token :: rest).take 0) = 0 := rfl
  simp only [due, List.zipIdx_cons, List.filterMap_cons, front, later]
  cases token.due? supplied 0 <;> rfl

theorem degradations_plan (list : List Token) (arguments : List Argument) :
    (plan list arguments).filterMap Action.degradation? = due list arguments.length := by
  induction list generalizing arguments with
  | nil => rfl
  | cons token rest ih =>
    rw [due_cons]
    cases token with
    | literal bytes =>
      simp [plan, List.filterMap_cons, Action.degradation?, Token.due?, demand, Token.taker?, ih]
    | directive parsed =>
      cases specifier : parsed.specifier with
      | echo byte =>
        simp [plan, Action.degradation?, Token.due?, specifier, demand, Token.taker?, ih]
      | convert conversion =>
        cases arguments with
        | nil => simp [plan, Action.degradation?, Token.due?, specifier, ih]
        | cons argument arguments =>
          simp [plan, List.filterMap_cons, Action.degradation?, Token.due?, specifier, demand,
            Token.taker?, ih]

/-- Where nothing is due, no record is handed in, whatever would be done with it. -/
theorem trace_of_due_eq_nil {σ : Type} [Sink σ] (handIn : σ → Log.Record → σ) (profile : Profile)
    {format : List UInt8} {arguments : List Argument}
    (silent : due (tokens format) arguments.length = []) (state : σ) :
    trace handIn profile format arguments state = (print profile format arguments state).sink := by
  have unreported : ∀ action ∈ plan (tokens format) arguments, action.degradation? = none := by
    rw [← degradations_plan] at silent
    exact List.filterMap_eq_nil_iff.mp silent
  rw [trace, traceTokens_eq_plan, print_eq_plan]
  apply List.foldl_ext
  intro state action member
  rw [Action.trace, unreported action member, Option.elim_none]

/-- Whether a token is a literal run or a directive that names a conversion. -/
def Token.isRecognized : Token → Bool
  | .literal _ => true
  | .directive parsed =>
      match parsed.specifier with
      | .echo _ => false
      | .convert _ => true

/-- Nothing is due exactly when every directive names a conversion and has an argument. -/
theorem due_eq_nil_iff (list : List Token) (supplied : Nat) :
    due list supplied = [] ↔
      (∀ token ∈ list, token.isRecognized = true) ∧ demand list ≤ supplied := by
  induction list generalizing supplied with
  | nil => simp [due, demand]
  | cons token rest ih =>
    rw [due_cons, List.append_eq_nil_iff, ih, List.forall_mem_cons]
    cases token with
    | literal bytes =>
      have same : demand [.literal bytes] = 0 := rfl
      simp [Token.due?, Token.isRecognized, same, demand_cons_literal]
    | directive parsed =>
      cases specifier : parsed.specifier with
      | echo byte => simp [Token.due?, Token.isRecognized, specifier]
      | convert conversion =>
        have one : demand [.directive parsed] = 1 := demand_cons_convert specifier
        have front : (Token.due? supplied 0 (.directive parsed)).toList = [] ↔ 0 < supplied := by
          simp [Token.due?, specifier, Nat.pos_iff_ne_zero]
        have named : (Token.directive parsed).isRecognized = true := by
          rw [Token.isRecognized, specifier]
        rw [front, one, demand_cons_convert specifier]
        constructor
        · rintro ⟨some, others, enough⟩
          exact ⟨⟨named, others⟩, by omega⟩
        · rintro ⟨⟨_, others⟩, enough⟩
          exact ⟨by omega, others, by omega⟩

namespace Log

variable [Conventions]

/-- A list of records to which those that a threshold admits are added. -/
def Threshold.keep (threshold : Threshold) (records : List Record) (record : Record) :
    List Record :=
  if threshold.admits record.level then records ++ [record] else records

/-- Records at the finest level are admitted by the widest threshold alone. -/
theorem Threshold.admits_trace_iff (threshold : Threshold) :
    threshold.admits .trace = true ↔ threshold = .upTo .trace := by
  rw [admits, Conventions.passes_eq]
  cases threshold with
  | off => decide
  | upTo level => cases level <;> decide

/-- Degradations are kept all or not at all. -/
private theorem Threshold.foldl_keep (threshold : Threshold) (degradations : List Degradation)
    (records : List Record) :
    (degradations.map Degradation.record).foldl threshold.keep records =
      records ++ if threshold = .upTo .trace then degradations.map Degradation.record else [] := by
  induction degradations generalizing records with
  | nil => simp
  | cons degradation rest ih =>
    have level : degradation.record.level = .trace := rfl
    rw [List.map_cons, List.foldl_cons, ih, keep, level]
    simp only [threshold.admits_trace_iff]
    split <;> simp

end Log

/-- Tracing a format is printing it and then handing in the records of what is due, whatever the log
does with them. -/
theorem trace_eq {σ ω : Type} [Sink σ] (keep : ω → Log.Record → ω) (profile : Profile)
    (format : List UInt8) (arguments : List Argument) (sink : σ) (log : ω) :
    trace (Traced.handIn keep) profile format arguments { sink, log } =
      { sink := (print profile format arguments sink).sink
        log :=
          ((due (tokens format) arguments.length).map Degradation.record).foldl keep log } := by
  have records : trace (Traced.handIn keep) profile format arguments { sink, log } =
      traceTokens (Traced.handIn fun log degradation => keep log degradation.record) profile
        (tokens format) arguments { sink, log } := rfl
  rw [records, traceTokens_eq_plan, Traced.foldl_trace, print_eq_plan, degradations_plan,
    List.foldl_map]

/-- Degradations are traced exactly, and tracing does not touch the output. Any log is handed the
records of what is due, in format order: one for each echoed byte, and one for each conversion whose
place among the conversions is not below the number of arguments. At the finest level these are the
records, at all others there are none, and the output is that of printing at every level. Arguments
that are as many leave the same records, and there are none exactly if every directive names a
conversion and has an argument. -/
theorem trace_records_what_is_due [Log.Conventions] {σ : Type} [Sink σ] (profile : Profile)
    (format : List UInt8) (arguments : List Argument) (sink : σ) :
    (∀ {ω : Type} (keep : ω → Log.Record → ω) (log : ω),
      trace (Traced.handIn keep) profile format arguments { sink, log } =
        { sink := (print profile format arguments sink).sink
          log := ((due (tokens format) arguments.length).map Degradation.record).foldl keep log }) ∧
    (∀ threshold : Log.Threshold,
      trace (Traced.handIn threshold.keep) profile format arguments { sink, log := [] } =
        { sink := (print profile format arguments sink).sink
          log := if threshold = .upTo .trace then
              (due (tokens format) arguments.length).map Degradation.record
            else [] }) ∧
    (∀ others : List Argument, others.length = arguments.length →
      ∀ {ω : Type} (keep : ω → Log.Record → ω) (log : ω),
        (trace (Traced.handIn keep) profile format others { sink, log }).log =
          (trace (Traced.handIn keep) profile format arguments { sink, log }).log) ∧
    ((trace (Traced.handIn (Log.Threshold.upTo .trace).keep) profile format arguments
        { sink, log := [] }).log = [] ↔
      (∀ token ∈ tokens format, token.isRecognized = true) ∧
        demand (tokens format) ≤ arguments.length) := by
  have kept (threshold : Log.Threshold) :
      trace (Traced.handIn threshold.keep) profile format arguments { sink, log := [] } =
        { sink := (print profile format arguments sink).sink
          log := if threshold = .upTo .trace then
              (due (tokens format) arguments.length).map Degradation.record
            else [] } := by
    rw [trace_eq, threshold.foldl_keep, List.nil_append]
  refine ⟨?_, kept, ?_, ?_⟩
  · intro ω keep log
    exact trace_eq keep profile format arguments sink log
  · intro others length ω keep log
    rw [trace_eq, trace_eq, length]
  · rw [kept, if_pos rfl, List.map_eq_nil_iff, due_eq_nil_iff]

/-- In `%z%d%s` with one argument, the echoed byte takes none and the text has none left, whichever
argument it is. Without the finest level nothing is recorded. -/
theorem trace_records_what_is_due_short :
    (trace (Traced.handIn (Log.Threshold.upTo .trace).keep) { wide := true } (utf8 "%z%d%s")
        [.text { bytes := [0], address := 4096 }] { sink := Collector.empty, log := [] }).log =
      [{ level := .trace, target := "ioprintf", message := "unrecognized conversion 'z'" },
        { level := .trace, target := "ioprintf", message := "no argument left for Str" }] ∧
    (trace (Traced.handIn (Log.Threshold.upTo .debug).keep) { wide := true } (utf8 "%z%d%s")
        [.int 7] { sink := Collector.empty, log := [] }).log = [] := by
  obtain ⟨_, kept, alike, _⟩ :=
    trace_records_what_is_due { wide := true } (utf8 "%z%d%s") [.int 7] Collector.empty
  refine ⟨(alike [.text { bytes := [0], address := 4096 }] rfl _ []).trans ?_,
    congrArg Traced.log (kept (.upTo .debug))⟩
  rw [kept, if_pos rfl]
  decide +kernel

end ByteFormat
