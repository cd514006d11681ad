import ByteFormat.Proofs.Log.Tracing
import ByteFormat.Proofs.Narrowing

/-! # Native and wide words

A build may fetch and render doubled length letters in a word of their own. Both words have 64 bits,
so nothing that is printed or traced tells the builds apart, nor one length letter from two
(`words_are_interchangeable`). Everything rests on the fetch, which has an arm for each word, and on
the rendering, which has a call for each: the two arms yield the same sign and magnitude
(`Fetched.toNative_ofWide`), and the two calls the same field (`Directive.writeInteger_native`).
-/

namespace ByteFormat

/-- The length with a single length letter doubled. -/
def Length.doubled : Length → Length
  | .plain => .plain
  | .long | .longLong => .longLong

def Directive.doubled (directive : Directive) : Directive :=
  { directive with length := directive.length.doubled }

def Token.doubled : Token → Token
  | .literal bytes => .literal bytes
  | .directive parsed => .directive parsed.doubled

def Action.doubled : Action → Action
  | .serve serving => .serve { serving with directive := serving.directive.doubled }
  | action => action

/-- What is fetched, moved to the native word. -/
def Fetched.toNative : Fetched → Fetched
  | .native magnitude negative => .native magnitude negative
  | .wide magnitude negative => .native magnitude negative

/-- The wide word holds the sign and the magnitude that the native word holds for the same bits. -/
theorem Fetched.toNative_ofWide (bits : UInt64) (signed : Bool) :
    (ofWide bits signed).toNative = ofNative bits.toInt64 bits signed := by
  cases signed <;> rfl

private theorem Fetched.toNative_ofNative (signedValue : Int64) (unsignedValue : UInt64)
    (signed : Bool) :
    (ofNative signedValue unsignedValue signed).toNative =
      ofNative signedValue unsignedValue signed := by
  cases signed <;> rfl

namespace Argument

/-- Every build fetches what the build without the wide word does. -/
theorem toNative_integer (argument : Argument) (profile : Profile) (length : Length)
    (signed : Bool) :
    (argument.integer profile length signed).toNative =
      argument.integer { wide := false } length signed := by
  obtain ⟨wide⟩ := profile
  cases length with
  | plain | long => exact Fetched.toNative_ofNative _ _ signed
  | longLong =>
    cases wide with
    | false => exact Fetched.toNative_ofNative _ _ signed
    | true => exact Fetched.toNative_ofWide argument.bits signed

/-- Without the wide word, two length letters fetch what one does. -/
theorem integer_doubled (argument : Argument) (length : Length) (signed : Bool) :
    argument.integer { wide := false } length.doubled signed =
      argument.integer { wide := false } length signed := by
  cases length <;> rfl

end Argument

private theorem plan_doubled (list : List Token) (arguments : List Argument) :
    plan (list.map Token.doubled) arguments = (plan list arguments).map Action.doubled := by
  induction list generalizing arguments with
  | nil => rfl
  | cons token rest ih =>
    cases token with
    | literal bytes => simp [Token.doubled, plan, Action.doubled, ih]
    | directive directive =>
      have same : directive.doubled.specifier = directive.specifier := rfl
      cases specifier : directive.specifier with
      | echo byte => simp [Token.doubled, plan, same, specifier, Action.doubled, ih]
      | convert conversion =>
        cases arguments with
        | nil => simp [Token.doubled, plan, same, specifier, Action.doubled, ih]
        | cons argument arguments =>
          simp [Token.doubled, plan, same, specifier, Action.doubled, ih]

private theorem Action.degradation?_doubled (action : Action) :
    action.doubled.degradation? = action.degradation? := by
  cases action <;> rfl

section

variable {σ : Type} [Sink σ] (first second : Profile)

/-- The calls that render the two words write the same field. -/
theorem Directive.writeInteger_native (directive : Directive) (profile : Profile)
    (conversion : Conversion) (argument : Argument) (sink : σ) :
    directive.writeInteger profile conversion argument sink =
      directive.writeInteger { wide := false } conversion argument sink := by
  rw [writeInteger, writeInteger, ← argument.toNative_integer profile]
  cases argument.integer profile directive.length conversion.isSigned <;> rfl

/-- An integer field depends neither on the build nor on a second length letter. -/
private theorem Directive.writeInteger_doubled (directive : Directive) (conversion : Conversion)
    (argument : Argument) (sink : σ) :
    directive.doubled.writeInteger first conversion argument sink =
      directive.writeInteger second conversion argument sink := by
  have letters : directive.doubled.writeInteger { wide := false } conversion argument sink =
      directive.writeInteger { wide := false } conversion argument sink := by
    simp only [writeInteger, doubled, argument.integer_doubled]
  rw [writeInteger_native, letters, ← directive.writeInteger_native second]

private theorem Directive.write_doubled (directive : Directive) (conversion : Conversion)
    (argument : Argument) (sink : σ) :
    directive.doubled.write first conversion argument sink =
      directive.write second conversion argument sink := by
  cases conversion with
  | char | text | float => rfl
  -- An address is fetched with two length letters in every directive, so only the builds differ.
  | pointer => exact directive.pointer.writeInteger_doubled first second .pointer argument _
  | signed | unsigned | hex | binary =>
    exact directive.writeInteger_doubled first second _ argument sink

private theorem Action.run_doubled (action : Action) (sink : σ) :
    action.doubled.run first sink = action.run second sink := by
  cases action with
  | serve serving =>
    exact serving.directive.write_doubled first second serving.conversion serving.argument sink
  | literal | echo | skip => rfl

/-- Doubled length letters in one build print and report what the tokens do in any other. -/
theorem traceTokens_doubled (report : σ → Degradation → σ) (list : List Token)
    (arguments : List Argument) (state : σ) :
    traceTokens report first (list.map Token.doubled) arguments state =
      traceTokens report second list arguments state := by
  rw [traceTokens_eq_plan, traceTokens_eq_plan, plan_doubled, List.foldl_map]
  congr 1
  funext state action
  rw [Action.trace, Action.trace, action.degradation?_doubled, action.run_doubled first second]

/-- Tokens that differ in doubled length letters only, each in a build of its own, print and report
alike. -/
private theorem traceTokens_of_doubled {list others : List Token}
    (alike : list.map Token.doubled = others.map Token.doubled) (report : σ → Degradation → σ)
    (arguments : List Argument) (state : σ) :
    traceTokens report first list arguments state =
      traceTokens report second others arguments state := by
  rw [← traceTokens_doubled first first, alike, traceTokens_doubled first second]

/-- Formats that differ in doubled length letters only, each in a build of its own, print and trace
alike. -/
theorem print_of_doubled {format other : List UInt8}
    (alike : (tokens format).map Token.doubled = (tokens other).map Token.doubled)
    (arguments : List Argument) (sink : σ) :
    print first format arguments sink = print second other arguments sink ∧
      ∀ handIn : σ → Log.Record → σ,
        trace handIn first format arguments sink = trace handIn second other arguments sink := by
  constructor
  · rw [print, print, printTokens, printTokens, traceTokens_of_doubled first second alike]
  · intro handIn
    exact traceTokens_of_doubled first second alike _ arguments sink

end

/-- Native and wide words are interchangeable. Every format makes the same calls on every sink and
leaves the same records with or without the wide word. In either build so do two formats whose
tokens become the same when each single length letter is doubled. The records are handed to the
state that takes the output, so their places among the calls are the same too. -/
theorem words_are_interchangeable :
    (∀ (format : List UInt8) (arguments : List Argument) {σ : Type} [Sink σ] (sink : σ),
      print { wide := true } format arguments sink =
        print { wide := false } format arguments sink ∧
      ∀ handIn : σ → Log.Record → σ,
        trace handIn { wide := true } format arguments sink =
          trace handIn { wide := false } format arguments sink) ∧
    ∀ (profile : Profile) (first second : List UInt8),
      (tokens first).map Token.doubled = (tokens second).map Token.doubled →
      ∀ (arguments : List Argument) {σ : Type} [Sink σ] (sink : σ),
        print profile first arguments sink = print profile second arguments sink ∧
        ∀ handIn : σ → Log.Record → σ,
          trace handIn profile first arguments sink =
            trace handIn profile second arguments sink := by
  constructor
  · intro format arguments σ _ sink
    exact print_of_doubled { wide := true } { wide := false } rfl arguments sink
  · intro profile first second alike arguments σ _ sink
    exact print_of_doubled profile profile alike arguments sink

/-- `%ld%lz` and `%lld%llz` are read as different tokens. They print the same number and the same
echoed byte, in both builds. -/
theorem words_are_interchangeable_letters :
    tokens (utf8 "%ld%lz") ≠ tokens (utf8 "%lld%llz") ∧
    (∀ profile, print profile (utf8 "%ld%lz") [.longLong (-5)] Recorder.empty =
      print profile (utf8 "%lld%llz") [.longLong (-5)] Recorder.empty) ∧
    print { wide := true } (utf8 "%lld%llz") [.longLong (-5)] Recorder.empty =
      { sink := ⟨#[.single 45, .single 53, .single 122]⟩
        degradations := [.unrecognized 122] } := by
  obtain ⟨builds, letters⟩ := words_are_interchangeable
  have alike : (tokens (utf8 "%ld%lz")).map Token.doubled =
      (tokens (utf8 "%lld%llz")).map Token.doubled := by
    decide +kernel
  refine ⟨by decide +kernel, fun profile => (letters profile _ _ alike _ Recorder.empty).1, ?_⟩
  rw [(builds _ _ Recorder.empty).1]
  decide +kernel

end ByteFormat
