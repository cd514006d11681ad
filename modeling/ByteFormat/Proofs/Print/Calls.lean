import ByteFormat.Output.Buffer
import ByteFormat.Proofs.Narrowing
import ByteFormat.Proofs.Print.Plan

/-! # Printing does not see its sink

Printing makes the same calls on every sink: a burst for each literal run and for each text, empty
ones included, and single bytes for everything else, in the order of the format. What a sink becomes
is the outcome of these calls. If the sink takes a burst as its bytes, only the bytes matter, and
they are those that a collector receives (`print_oblivious_to_sink`).
-/

namespace ByteFormat

def Directive.integerField (directive : Directive) (profile : Profile) (conversion : Conversion)
    (argument : Argument) : List UInt8 :=
  let fetched := argument.integer profile directive.length conversion.isSigned
  fetched.magnitude.field conversion.radix fetched.negative directive.padding

namespace Serving

def bytes (profile : Profile) (serving : Serving) : List UInt8 :=
  match serving.conversion with
  | .char => [serving.argument.byte]
  | .text => serving.argument.string
  | .float =>
      FixedPoint.field serving.argument.toBinary64 serving.directive.precision
        serving.directive.padding
  | .pointer =>
      '0'.toUInt8 :: 'x'.toUInt8 ::
        serving.directive.pointer.integerField profile .pointer serving.argument
  | .signed | .unsigned | .hex | .binary =>
      serving.directive.integerField profile serving.conversion serving.argument

/-- The calls that a conversion makes on a sink: a text is one burst, everything else single
bytes. -/
def calls (profile : Profile) (serving : Serving) : List SinkCall :=
  if serving.conversion = .text then [.burst (serving.bytes profile)]
  else (serving.bytes profile).map .single

end Serving

namespace Action

def bytes (profile : Profile) : Action → List UInt8
  | .literal bytes => bytes
  | .echo byte => [byte]
  | .serve serving => serving.bytes profile
  | .skip _ => []

def calls (profile : Profile) : Action → List SinkCall
  | .literal bytes => [.burst bytes]
  | .echo byte => [.single byte]
  | .serve serving => serving.calls profile
  | .skip _ => []

end Action

/-- The calls that printing makes on a sink. -/
def printCalls (profile : Profile) (format : List UInt8) (arguments : List Argument) :
    List SinkCall :=
  (plan (tokens format) arguments).flatMap (Action.calls profile)

namespace SinkCall

theorem flatMap_bytes_single (bytes : List UInt8) :
    (bytes.map single).flatMap SinkCall.bytes = bytes := by
  induction bytes with
  | nil => rfl
  | cons byte rest ih =>
    simp only [List.map_cons, List.flatMap_cons, ih, SinkCall.bytes, List.singleton_append]

private theorem foldl_apply_single {σ : Type} [Sink σ] (bytes : List UInt8) (sink : σ) :
    (bytes.map single).foldl apply sink = Sink.writeEach sink bytes := by
  rw [List.foldl_map]
  rfl

private theorem foldl_apply_lawful {σ : Type} [Sink σ] [LawfulSink σ] (calls : List SinkCall)
    (sink : σ) :
    calls.foldl apply sink = Sink.writeEach sink (calls.flatMap SinkCall.bytes) := by
  induction calls generalizing sink with
  | nil => rfl
  | cons call rest ih =>
    have first : apply sink call = Sink.writeEach sink call.bytes := by
      cases call with
      | single byte => rfl
      | burst bytes => exact LawfulSink.writeBytes_eq sink bytes
    rw [List.foldl_cons, ih, first, List.flatMap_cons, Sink.writeEach_append]

private theorem toList_foldl_apply (calls : List SinkCall) (recorder : Recorder) :
    (calls.foldl apply recorder).toList = recorder.toList ++ calls := by
  induction calls generalizing recorder with
  | nil => simp
  | cons call rest ih =>
    have first : (apply recorder call).toList = recorder.toList ++ [call] := by
      cases call with
      | single byte => exact Recorder.toList_write recorder byte
      | burst bytes => exact Recorder.toList_writeBytes recorder bytes
    rw [List.foldl_cons, ih, first, List.append_assoc, List.singleton_append]

end SinkCall

private theorem Serving.flatMap_bytes_calls (profile : Profile) (serving : Serving) :
    (serving.calls profile).flatMap SinkCall.bytes = serving.bytes profile := by
  unfold calls
  split
  · exact List.append_nil _
  · exact SinkCall.flatMap_bytes_single _

private theorem Action.flatMap_bytes_calls (profile : Profile) (action : Action) :
    (action.calls profile).flatMap SinkCall.bytes = action.bytes profile := by
  cases action with
  | literal run => exact List.append_nil run
  | echo byte => rfl
  | serve serving => exact serving.flatMap_bytes_calls profile
  | skip conversion => rfl

section

variable {σ : Type} [Sink σ]

/-- In either word, an integer field is written one byte at a time. -/
theorem Directive.writeInteger_eq (directive : Directive) (profile : Profile)
    (conversion : Conversion) (argument : Argument) (sink : σ) :
    directive.writeInteger profile conversion argument sink =
      Sink.writeEach sink (directive.integerField profile conversion argument) := by
  unfold writeInteger integerField
  cases argument.integer profile directive.length conversion.isSigned <;> rfl

/-- A conversion that writes no text writes its bytes one at a time. -/
theorem Serving.write_of_ne_text (profile : Profile) {serving : Serving}
    (other : serving.conversion ≠ .text) (sink : σ) :
    serving.directive.write profile serving.conversion serving.argument sink =
      Sink.writeEach sink (serving.bytes profile) := by
  obtain ⟨directive, conversion, argument⟩ := serving
  cases conversion with
  | text => exact absurd rfl other
  | char | float => rfl
  | pointer => exact directive.pointer.writeInteger_eq profile .pointer argument _
  | signed | unsigned | hex | binary => exact directive.writeInteger_eq profile _ argument sink

private theorem Serving.write_eq_calls (profile : Profile) (serving : Serving) (sink : σ) :
    serving.directive.write profile serving.conversion serving.argument sink =
      (serving.calls profile).foldl SinkCall.apply sink := by
  by_cases text : serving.conversion = .text
  · simp [Directive.write, calls, bytes, text, SinkCall.apply]
  · rw [write_of_ne_text profile text, calls, if_neg text, SinkCall.foldl_apply_single]

private theorem Action.run_eq_calls (profile : Profile) (action : Action) (sink : σ) :
    action.run profile sink = (action.calls profile).foldl SinkCall.apply sink := by
  cases action with
  | literal bytes => rfl
  | echo byte => rfl
  | serve serving => exact serving.write_eq_calls profile sink
  | skip conversion => rfl

/-- Carrying out a plan does to a sink what its calls do. -/
theorem foldl_run_eq_calls (profile : Profile) (actions : List Action) (sink : σ) :
    actions.foldl (Action.run profile) sink =
      (actions.flatMap (Action.calls profile)).foldl SinkCall.apply sink := by
  rw [List.foldl_flatMap]
  congr 1
  funext sink action
  exact action.run_eq_calls profile sink

theorem print_sink_eq_calls (profile : Profile) (format : List UInt8) (arguments : List Argument)
    (sink : σ) :
    (print profile format arguments sink).sink =
      (printCalls profile format arguments).foldl SinkCall.apply sink := by
  rw [print_eq_plan, printCalls, ← foldl_run_eq_calls]

end

private theorem flatMap_bytes_calls (profile : Profile) (actions : List Action) :
    (actions.flatMap (Action.calls profile)).flatMap SinkCall.bytes =
      actions.flatMap (Action.bytes profile) := by
  rw [List.flatMap_assoc]
  congr 1
  funext action
  exact action.flatMap_bytes_calls profile

/-- On a lawful sink, carrying out a plan amounts to writing its bytes one at a time. -/
theorem foldl_run_lawful {σ : Type} [Sink σ] [LawfulSink σ] (profile : Profile)
    (actions : List Action) (sink : σ) :
    actions.foldl (Action.run profile) sink =
      Sink.writeEach sink (actions.flatMap (Action.bytes profile)) := by
  rw [foldl_run_eq_calls, SinkCall.foldl_apply_lawful, flatMap_bytes_calls]

/-- Tokens write to a collector what their plan writes, action by action. -/
theorem toList_printTokens (profile : Profile) (list : List Token) (arguments : List Argument) :
    (printTokens profile list arguments Collector.empty).sink.toList =
      (plan list arguments).flatMap (Action.bytes profile) := by
  rw [printTokens_eq_plan, foldl_run_lawful, Collector.toList_writeEach, Collector.toList_empty,
    List.nil_append]

theorem printBytes_eq_plan (profile : Profile) (format : List UInt8) (arguments : List Argument) :
    printBytes profile format arguments =
      (plan (tokens format) arguments).flatMap (Action.bytes profile) :=
  toList_printTokens profile (tokens format) arguments

/-- The bytes that are printed are those of the calls. -/
theorem flatMap_bytes_printCalls (profile : Profile) (format : List UInt8)
    (arguments : List Argument) :
    (printCalls profile format arguments).flatMap SinkCall.bytes =
      printBytes profile format arguments := by
  rw [printCalls, flatMap_bytes_calls, printBytes_eq_plan]

/-- A recorder shows the calls of printing behind those made before. -/
theorem toList_print (profile : Profile) (format : List UInt8) (arguments : List Argument)
    (recorder : Recorder) :
    (print profile format arguments recorder).sink.toList =
      recorder.toList ++ printCalls profile format arguments := by
  rw [print_sink_eq_calls, SinkCall.toList_foldl_apply]

/-- A lawful sink becomes what the printed bytes make of it, one at a time. -/
theorem print_sink_lawful {σ : Type} [Sink σ] [LawfulSink σ] (profile : Profile)
    (format : List UInt8) (arguments : List Argument) (sink : σ) :
    (print profile format arguments sink).sink =
      Sink.writeEach sink (printBytes profile format arguments) := by
  rw [print_eq_plan, foldl_run_lawful, printBytes_eq_plan]

/-- Printing makes the same calls on every sink: whatever a sink is, printing leaves it as these
calls do, and a recorder shows them. A sink for which a burst is nothing but its bytes is left as
by writing, one at a time, the bytes that a collector receives. -/
theorem print_oblivious_to_sink (profile : Profile) (format : List UInt8)
    (arguments : List Argument) :
    (∀ {σ : Type} [Sink σ] (sink : σ),
      (print profile format arguments sink).sink =
        (printCalls profile format arguments).foldl SinkCall.apply sink) ∧
    (print profile format arguments Recorder.empty).sink.toList =
      printCalls profile format arguments ∧
    ∀ {σ : Type} [Sink σ] [LawfulSink σ] (sink : σ),
      (print profile format arguments sink).sink =
        (print profile format arguments Collector.empty).sink.toList.foldl Sink.write sink := by
  refine ⟨print_sink_eq_calls profile format arguments, ?_,
    print_sink_lawful profile format arguments⟩
  rw [print_sink_eq_calls, SinkCall.toList_foldl_apply, Recorder.toList_empty, List.nil_append]

/-- A text that begins with a zero byte is an empty burst, one with a zero byte further on is the
burst of what comes before, and a buffer of three cells is left as by the five bytes that are
written. -/
theorem print_oblivious_to_sink_empty_text :
    printCalls { wide := true } (utf8 "<%s>%s%d")
        [.text { bytes := [0, 65], address := 4096 },
          .text { bytes := [72, 105, 0, 33], address := 8192 }, .int 7] =
      [.burst [60], .burst [], .burst [62], .burst [72, 105], .single 55] ∧
    (print { wide := true } (utf8 "<%s>%s%d")
        [.text { bytes := [0, 65], address := 4096 },
          .text { bytes := [72, 105, 0, 33], address := 8192 }, .int 7]
        (Buffer.ofCells #v[35, 35, 35])).sink =
      [60, 62, 72, 105, 55].foldl Sink.write (Buffer.ofCells #v[35, 35, 35]) := by
  obtain ⟨_, recorded, lawful⟩ := print_oblivious_to_sink { wide := true } (utf8 "<%s>%s%d")
    [.text { bytes := [0, 65], address := 4096 },
      .text { bytes := [72, 105, 0, 33], address := 8192 }, .int 7]
  refine ⟨recorded.symm.trans (by decide +kernel),
    (lawful (Buffer.ofCells #v[35, 35, 35])).trans ?_⟩
  congr 1
  decide +kernel

end ByteFormat
