import ByteFormat.Proofs.Session.Buffered

/-! # Layers of streams

Between a session and its device there may be one stream or a stream on a stream. The bytes that
reach the device are the same, and in the same order, for every session. The layers differ in how
they group them: below one stream, the steps that use the device keep their bursts, whether directly
or through a reference to it, and those that use the stream as a sink lose them; below two streams
no burst is left (`Step.layers_are_transparent`).
-/

namespace ByteFormat

def Effect.bytes : Effect → List UInt8
  | .send bytes => bytes
  | .clear => []

namespace Step

/-- A step carried out on a device, without a stream. -/
def direct {δ : Type} [Device δ] (profile : Profile) (device : δ) : Step → δ
  | .print format arguments | .printThrough format arguments | .printBelow format arguments =>
      (ByteFormat.print profile format arguments device).sink
  | .chain format arguments byte bytes =>
      let first := (ByteFormat.print profile format arguments device).sink
      (ByteFormat.print profile format arguments
        (Sink.writeBytes (Sink.write first byte) bytes)).sink
  | .write byte => Sink.write device byte
  | .writeBytes bytes | .writeBytesThrough bytes => Sink.writeBytes device bytes
  | .writeTextThrough text | .writeTextBelow text => ((TextWriter.mk device).write text).sink
  | .clear => Device.clear device

/-- Whether the bursts of a step reach the device of a stream as bursts. -/
def keepsBursts : Step → Bool
  | .print .. | .chain .. | .printBelow .. | .writeBytes _ | .writeTextBelow _ => true
  | .printThrough .. | .write _ | .writeBytesThrough _ | .writeTextThrough _ | .clear => false

/-- The calls of a step that reach the device of a stream: those of the step itself, or one for each
of its bytes. -/
def arrivals (profile : Profile) (step : Step) : List SinkCall :=
  if step.keepsBursts then (step.direct profile Recorder.empty).toList
  else (step.effect profile).bytes.map .single

section

variable {δ : Type} [Device δ] (profile : Profile) (stream : Stream δ)

private theorem device_run_of_keepsBursts {step : Step} (keeps : step.keepsBursts = true) :
    (step.run profile stream).sink.device = step.direct profile stream.device := by
  cases step with
  | print | chain | writeBytes | writeTextBelow => rfl
  | printBelow format arguments =>
    -- The reference passes every call on, so printing on it is printing on the device.
    exact Reference.keepsCalls_target.print_sink profile format arguments
      (Reference.mk stream.device)
  | printThrough | write | writeBytesThrough | writeTextThrough | clear => cases keeps

/-- A step that does not keep its bursts sends its bytes to the device one at a time. -/
private theorem device_run_of_not_keepsBursts {step : Step} (splits : step.keepsBursts = false)
    (kept : step ≠ .clear) :
    (step.run profile stream).sink.device =
      Sink.writeEach stream.device (step.effect profile).bytes := by
  cases step with
  | printThrough format arguments =>
    have through := print_sink_lawful profile format arguments stream
    exact (congrArg Stream.device through).trans (stream.writeEach_device _)
  | write byte => rfl
  | writeBytesThrough bytes => exact stream.writeEach_device bytes
  | writeTextThrough text => exact stream.writeEach_device (utf8 text)
  | clear => exact absurd rfl kept
  | print | chain | printBelow | writeBytes | writeTextBelow => cases splits

end

private theorem toList_direct (profile : Profile) (recorder : Recorder) {step : Step}
    (kept : step ≠ .clear) :
    (step.direct profile recorder).toList =
      recorder.toList ++ (step.direct profile Recorder.empty).toList := by
  cases step with
  | print | printThrough | printBelow | chain => simp [direct, toList_print]
  | write | writeBytes | writeBytesThrough => simp [direct]
  | writeTextThrough | writeTextBelow => simp [direct, TextWriter.write]
  | clear => exact absurd rfl kept

/-- A step adds its arrivals to the record of the device. -/
private theorem toList_run (profile : Profile) (stream : Stream Recorder) {step : Step}
    (kept : step ≠ .clear) :
    (step.run profile stream).sink.device.toList =
      stream.device.toList ++ step.arrivals profile := by
  unfold arrivals
  split
  · next keeps => rw [device_run_of_keepsBursts profile stream keeps, toList_direct profile _ kept]
  · next splits =>
    rw [device_run_of_not_keepsBursts profile stream (Bool.eq_false_iff.mpr splits) kept,
      Recorder.toList_writeEach]

theorem toList_final (profile : Profile) (stream : Stream Recorder) {steps : List Step}
    (kept : .clear ∉ steps) :
    (final profile stream steps).device.toList =
      stream.device.toList ++ steps.flatMap (arrivals profile) := by
  induction steps generalizing stream with
  | nil => simp [final]
  | cons step rest ih =>
    obtain ⟨first, others⟩ := List.ne_and_not_mem_of_not_mem_cons kept
    rw [final, ih _ others, toList_run profile stream first.symm, List.flatMap_cons,
      List.append_assoc]

private theorem flatMap_bytes_arrivals (profile : Profile) (step : Step) :
    (step.arrivals profile).flatMap SinkCall.bytes = (step.effect profile).bytes := by
  unfold arrivals
  split
  · next keeps =>
    cases step with
    | print | printBelow =>
      simp [direct, toList_print, flatMap_bytes_printCalls, effect, Effect.bytes]
    | chain format arguments byte bytes =>
      simp [direct, toList_print, flatMap_bytes_printCalls, SinkCall.bytes, effect, Effect.bytes]
    | writeBytes | writeTextBelow =>
      simp [direct, TextWriter.write, SinkCall.bytes, effect, Effect.bytes]
    | printThrough | write | writeBytesThrough | writeTextThrough | clear => cases keeps
  · exact SinkCall.flatMap_bytes_single _

def sent (profile : Profile) (steps : List Step) : List UInt8 :=
  steps.flatMap fun step => (step.effect profile).bytes

/-- On a device that takes bursts as their bytes, a session without a clear writes the bytes of its
steps. -/
theorem device_final_of_kept {δ : Type} [Device δ] [LawfulSink δ] (profile : Profile)
    (stream : Stream δ) {steps : List Step} (kept : .clear ∉ steps) :
    (final profile stream steps).device = Sink.writeEach stream.device (sent profile steps) := by
  induction steps generalizing stream with
  | nil => rfl
  | cons step rest ih =>
    obtain ⟨first, others⟩ := List.ne_and_not_mem_of_not_mem_cons kept
    have written : (step.effect profile).apply stream.device =
        Sink.writeEach stream.device (step.effect profile).bytes := by
      cases step with
      | clear => exact absurd rfl first
      | _ => rfl
    rw [final, ih _ others, device_run, written, sent, sent, List.flatMap_cons,
      Sink.writeEach_append]

/-- The recorder below one stream after a session. -/
def belowOne (profile : Profile) (steps : List Step) : Recorder :=
  (final profile (Stream.mk Recorder.empty) steps).device

def belowTwo (profile : Profile) (steps : List Step) : Recorder :=
  (final profile (Stream.mk (Stream.mk Recorder.empty)) steps).device.device

/-- Layers of streams are transparent. Below one stream and below two, a recorder receives the bytes
of the steps in their order. Below two it receives them one at a time. Below one, the calls that
reach it are, step by step, those that the step makes on a device by itself if it prints or writes
on the device, and one call for each byte if it uses the stream as a sink. -/
theorem layers_are_transparent (profile : Profile) {steps : List Step} (kept : .clear ∉ steps) :
    (belowOne profile steps).bytes = sent profile steps ∧
    (belowTwo profile steps).bytes = sent profile steps ∧
    (belowTwo profile steps).toList = (sent profile steps).map .single ∧
    (belowOne profile steps).toList =
      steps.flatMap fun step =>
        if step.keepsBursts then (step.direct profile Recorder.empty).toList
        else (step.effect profile).bytes.map .single := by
  have plain : (belowOne profile steps).toList = steps.flatMap (arrivals profile) :=
    toList_final profile (Stream.mk Recorder.empty) kept
  have singles : (belowTwo profile steps).toList = (sent profile steps).map .single := by
    rw [belowTwo, device_final_of_kept profile _ kept, Stream.writeEach_device,
      Recorder.toList_writeEach, Recorder.toList_empty, List.nil_append]
  refine ⟨?_, ?_, singles, plain⟩
  · rw [Recorder.bytes, plain, List.flatMap_assoc, sent]
    congr 1
    funext step
    exact step.flatMap_bytes_arrivals profile
  · rw [Recorder.bytes, singles, SinkCall.flatMap_bytes_single]

/-- Below one stream, a text printed on the device is a burst, also an empty one, and a literal run
printed on a reference to the device is one too. Printed through the stream a run comes byte by
byte, and below two streams everything does. -/
theorem layers_are_transparent_bursts :
    (belowOne { wide := true }
        [.print (utf8 "<%s") [.text { bytes := [0], address := 4096 }],
          .printThrough (utf8 "ab") [], .printBelow (utf8 "ab%d") [.int 7],
          .writeTextBelow "cd"]).toList =
      [.burst [60], .burst [], .single 97, .single 98, .burst [97, 98], .single 55,
        .burst [99, 100]] ∧
    (belowTwo { wide := true }
        [.print (utf8 "<%s") [.text { bytes := [0], address := 4096 }],
          .printThrough (utf8 "ab") [], .printBelow (utf8 "ab%d") [.int 7],
          .writeTextBelow "cd"]).toList =
      [.single 60, .single 97, .single 98, .single 97, .single 98, .single 55, .single 99,
        .single 100] := by
  have kept : Step.clear ∉ [.print (utf8 "<%s") [.text { bytes := [0], address := 4096 }],
      .printThrough (utf8 "ab") [], .printBelow (utf8 "ab%d") [.int 7], .writeTextBelow "cd"] := by
    decide
  obtain ⟨_, _, nested, plain⟩ := layers_are_transparent { wide := true } kept
  exact ⟨plain.trans (by decide +kernel), nested.trans (by decide +kernel)⟩

end Step

end ByteFormat
