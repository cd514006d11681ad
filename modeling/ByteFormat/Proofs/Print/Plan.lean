import ByteFormat.Output.Recorder
import ByteFormat.Print

/-! # Printing by plan

What printing does at each token depends on the tokens and the arguments alone, not on the sink.
The plan lists it: literal runs, echoed bytes, conversions served with an argument, and conversions
that have none left. Printing carries out the plan and reports its degradations
(`print_eq_plan`). In the plan, the conversions take the arguments in order, one each, as long as
there are any.
-/

namespace ByteFormat

/-- A conversion of a directive with the argument it gets. -/
structure Serving where
  directive : Directive
  conversion : Conversion
  argument : Argument
deriving DecidableEq

/-- What printing does at a token. -/
inductive Action where
  | literal (bytes : List UInt8)
  | echo (byte : UInt8)
  | serve (serving : Serving)
  | skip (conversion : Conversion)
deriving DecidableEq

namespace Action

def run {σ : Type} [Sink σ] (profile : Profile) (sink : σ) : Action → σ
  | .literal bytes => Sink.writeBytes sink bytes
  | .echo byte => Sink.write sink byte
  | .serve serving => serving.directive.write profile serving.conversion serving.argument sink
  | .skip _ => sink

def degradation? : Action → Option Degradation
  | .literal _ => none
  | .echo byte => some (.unrecognized byte)
  | .serve _ => none
  | .skip conversion => some (.unsupplied conversion)

def serving? : Action → Option Serving
  | .serve serving => some serving
  | _ => none

end Action

/-- The directive and the conversion of a token that takes an argument. -/
def Token.taker? : Token → Option (Directive × Conversion)
  | .literal _ => none
  | .directive parsed =>
      match parsed.specifier with
      | .convert conversion => some (parsed, conversion)
      | .echo _ => none

/-- What printing does at each token. -/
def plan : List Token → List Argument → List Action
  | [], _ => []
  | .literal bytes :: rest, arguments => .literal bytes :: plan rest arguments
  | .directive directive :: rest, arguments =>
      match directive.specifier, arguments with
      | .echo byte, arguments => .echo byte :: plan rest arguments
      | .convert conversion, [] => .skip conversion :: plan rest []
      | .convert conversion, argument :: arguments =>
          .serve { directive, conversion, argument } :: plan rest arguments

def servings (actions : List Action) : List Serving :=
  actions.filterMap Action.serving?

section

variable {σ τ : Type} [Sink σ] [Sink τ] {map : σ → τ}

private theorem KeepsCalls.writeInteger (keeps : KeepsCalls map) (directive : Directive)
    (profile : Profile) (conversion : Conversion) (argument : Argument) (sink : σ) :
    map (directive.writeInteger profile conversion argument sink) =
      directive.writeInteger profile conversion argument (map sink) := by
  unfold Directive.writeInteger
  cases argument.integer profile directive.length conversion.isSigned <;>
    exact keeps.writeEach sink _

private theorem KeepsCalls.directive_write (keeps : KeepsCalls map) (directive : Directive)
    (profile : Profile) (conversion : Conversion) (argument : Argument) (sink : σ) :
    map (directive.write profile conversion argument sink) =
      directive.write profile conversion argument (map sink) := by
  cases conversion with
  | char => exact keeps.write sink _
  | text => exact keeps.writeBytes sink _
  | float => exact keeps.writeEach sink _
  | pointer =>
    rw [Directive.write, keeps.writeInteger, keeps.write, keeps.write, Directive.write]
  | signed | unsigned | hex | binary => exact keeps.writeInteger directive profile _ argument sink

/-- An action does the same on both sides of a map that keeps calls. -/
theorem KeepsCalls.run (keeps : KeepsCalls map) (profile : Profile) (action : Action) (sink : σ) :
    map (action.run profile sink) = action.run profile (map sink) := by
  cases action with
  | literal bytes => exact keeps.writeBytes sink bytes
  | echo byte => exact keeps.write sink byte
  | serve serving => exact keeps.directive_write serving.directive profile _ _ sink
  | skip conversion => rfl

private theorem KeepsCalls.foldl_run (keeps : KeepsCalls map) (profile : Profile)
    (actions : List Action) (sink : σ) :
    map (actions.foldl (Action.run profile) sink) =
      actions.foldl (Action.run profile) (map sink) := by
  induction actions generalizing sink with
  | nil => rfl
  | cons action rest ih => rw [List.foldl_cons, ih, keeps.run, List.foldl_cons]

end

variable {σ : Type} [Sink σ]

/-- What an action does to a state that takes output and reports: its degradation is reported
first. -/
def Action.trace (report : σ → Degradation → σ) (profile : Profile) (state : σ) (action : Action) :
    σ :=
  action.run profile (action.degradation?.elim state (report state))

theorem traceTokens_eq_plan (report : σ → Degradation → σ) (profile : Profile) (list : List Token)
    (arguments : List Argument) (state : σ) :
    traceTokens report profile list arguments state =
      (plan list arguments).foldl (Action.trace report profile) state := by
  induction list generalizing arguments state with
  | nil => rfl
  | cons token rest ih =>
    cases token with
    | literal bytes => exact ih arguments _
    | directive directive =>
      cases specifier : directive.specifier with
      | echo byte =>
        simp only [traceTokens, plan, specifier, List.foldl_cons]
        exact ih arguments _
      | convert conversion =>
        cases arguments with
        | nil =>
          simp only [traceTokens, plan, specifier, List.foldl_cons]
          exact ih [] _
        | cons argument arguments =>
          simp only [traceTokens, plan, specifier, List.foldl_cons]
          exact ih arguments _

/-- Where output and log are kept apart, an action writes to the output alone, and its report goes
to the log alone. -/
private theorem Traced.trace_action {ω : Type} (keep : ω → Degradation → ω) (profile : Profile)
    (action : Action) (sink : σ) (log : ω) :
    action.trace (handIn keep) profile { sink, log } =
      { sink := action.run profile sink, log := action.degradation?.elim log (keep log) } := by
  have reported : action.degradation?.elim { sink, log } (handIn keep { sink, log }) =
      ({ sink, log := action.degradation?.elim log (keep log) } : Traced σ ω) := by
    cases action.degradation? <;> rfl
  rw [Action.trace, reported, ← (keepsCalls_mk _).run]

/-- A plan is carried out on the output, and its degradations are handed in to the log. -/
theorem Traced.foldl_trace {ω : Type} (keep : ω → Degradation → ω) (profile : Profile)
    (actions : List Action) (sink : σ) (log : ω) :
    actions.foldl (Action.trace (handIn keep) profile) { sink, log } =
      { sink := actions.foldl (Action.run profile) sink
        log := (actions.filterMap Action.degradation?).foldl keep log } := by
  induction actions generalizing sink log with
  | nil => rfl
  | cons action rest ih =>
    rw [List.foldl_cons, trace_action, ih, List.filterMap_cons]
    cases action.degradation? <;> rfl

/-- Printing carries out its plan and reports the degradations in it. -/
theorem printTokens_eq_plan (profile : Profile) (list : List Token) (arguments : List Argument)
    (sink : σ) :
    printTokens profile list arguments sink =
      { sink := (plan list arguments).foldl (Action.run profile) sink
        degradations := (plan list arguments).filterMap Action.degradation? } := by
  have collected (reports : List Degradation) :
      reports.foldl (fun reports degradation => reports ++ [degradation]) [] = reports := by
    rw [List.foldl_append_eq_append, List.nil_append, ← List.flatMap_def, List.flatMap_singleton']
  rw [printTokens, traceTokens_eq_plan, Traced.foldl_trace, collected]

theorem print_eq_plan (profile : Profile) (format : List UInt8) (arguments : List Argument)
    (sink : σ) :
    print profile format arguments sink =
      { sink := (plan (tokens format) arguments).foldl (Action.run profile) sink
        degradations := (plan (tokens format) arguments).filterMap Action.degradation? } :=
  printTokens_eq_plan profile (tokens format) arguments sink

/-- Printing does the same on both sides of a map that keeps calls. -/
theorem KeepsCalls.print_sink {τ : Type} [Sink τ] {map : σ → τ} (keeps : KeepsCalls map)
    (profile : Profile) (format : List UInt8) (arguments : List Argument) (sink : σ) :
    map (print profile format arguments sink).sink =
      (print profile format arguments (map sink)).sink := by
  rw [print_eq_plan, print_eq_plan, keeps.foldl_run]

/-- The takers of arguments are served in order, one argument each, as far as both last. -/
theorem servings_plan (tokens : List Token) (arguments : List Argument) :
    servings (plan tokens arguments) =
      ((tokens.filterMap Token.taker?).zip arguments).map fun (taker, argument) =>
        { directive := taker.1, conversion := taker.2, argument } := by
  induction tokens generalizing arguments with
  | nil => rfl
  | cons token rest ih =>
    unfold servings at *
    cases token with
    | literal bytes => simp [plan, List.filterMap_cons, Token.taker?, Action.serving?, ih]
    | directive directive =>
      cases specifier : directive.specifier with
      | echo byte => simp [plan, List.filterMap_cons, Token.taker?, Action.serving?, specifier, ih]
      | convert conversion =>
        cases arguments with
        | nil => simp [plan, List.filterMap_cons, Token.taker?, Action.serving?, specifier, ih]
        | cons argument arguments =>
          simp [plan, Token.taker?, Action.serving?, specifier, ih]

def printBytes (profile : Profile) (format : List UInt8) (arguments : List Argument) : List UInt8 :=
  (print profile format arguments Collector.empty).sink.toList

end ByteFormat
