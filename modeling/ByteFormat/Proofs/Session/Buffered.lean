import ByteFormat.Call.Expansion
import ByteFormat.Proofs.Output.Window
import ByteFormat.Proofs.Print.Calls
import ByteFormat.Session

/-! # Sessions on a buffer

A step of a session, whether it uses the stream, the stream as a sink, or the device, either sends
bytes to the device or clears it. On a device that takes bursts as their bytes nothing else about
the step matters (`Step.device_run`). Hence a buffer is, after any session, a window on the bytes
sent to it, and a call that prints into a buffer stores as much as fits of what the same call prints
elsewhere (`Buffer.session_is_window`).
-/

namespace ByteFormat

/-- What a step does to the device of its stream. -/
inductive Effect where
  | send (bytes : List UInt8)
  | clear
deriving DecidableEq, Repr

def Effect.apply {δ : Type} [Device δ] (device : δ) : Effect → δ
  | .send bytes => Sink.writeEach device bytes
  | .clear => Device.clear device

def History.extend (history : History) : Effect → History
  | .send bytes => history.send bytes
  | .clear => history.clear

namespace Step

/-- The effect of a step: the bytes it sends, or a clear. -/
def effect (profile : Profile) : Step → Effect
  | .print format arguments | .printThrough format arguments | .printBelow format arguments =>
      .send (printBytes profile format arguments)
  | .chain format arguments byte bytes =>
      .send (printBytes profile format arguments ++ byte :: bytes ++
        printBytes profile format arguments)
  | .write byte => .send [byte]
  | .writeBytes bytes | .writeBytesThrough bytes => .send bytes
  | .writeTextThrough text | .writeTextBelow text => .send (utf8 text)
  | .clear => .clear

/-- What a session sends, epoch by epoch. -/
def history (profile : Profile) (steps : List Step) : History :=
  steps.foldl (fun history step => history.extend (step.effect profile)) .empty

section

variable {δ : Type} [Device δ] [LawfulSink δ]

/-- A step has its effect on the device and no other. -/
theorem device_run (profile : Profile) (stream : Stream δ) (step : Step) :
    (step.run profile stream).sink.device = (step.effect profile).apply stream.device := by
  cases step with
  | print format arguments => exact print_sink_lawful profile format arguments stream.device
  | printBelow format arguments =>
    have below := Reference.keepsCalls_target.print_sink profile format arguments
      (Reference.mk stream.device)
    exact below.trans (print_sink_lawful profile format arguments stream.device)
  | printThrough format arguments =>
    have through := print_sink_lawful profile format arguments stream
    exact (congrArg Stream.device through).trans (stream.writeEach_device _)
  | chain format arguments byte bytes =>
    simp only [run, Stream.print, Stream.write, Stream.writeBytes, print_sink_lawful,
      LawfulSink.writeBytes_eq, effect, Effect.apply, Sink.writeEach_append, Sink.writeEach_cons]
  | write byte => rfl
  | writeBytes bytes => exact LawfulSink.writeBytes_eq stream.device bytes
  | writeBytesThrough bytes => exact stream.writeEach_device bytes
  | writeTextThrough text => exact stream.writeEach_device (utf8 text)
  | writeTextBelow text => exact LawfulSink.writeBytes_eq stream.device (utf8 text)
  | clear => rfl

theorem device_final (profile : Profile) (stream : Stream δ) (steps : List Step) :
    (final profile stream steps).device =
      steps.foldl (fun device step => (step.effect profile).apply device) stream.device := by
  induction steps generalizing stream with
  | nil => rfl
  | cons step rest ih => rw [final, ih, device_run, List.foldl_cons]

end

end Step

namespace Buffer

variable {capacity : Nat} {cells : Vector UInt8 capacity} {history : History}
  {buffer : Buffer capacity}

theorem Window.apply (window : Window cells history buffer) (effect : Effect) :
    Window cells (history.extend effect) (effect.apply buffer) := by
  cases effect with
  | send bytes => exact window.writeEach bytes
  | clear => exact window.clear

theorem Window.steps (window : Window cells history buffer) (profile : Profile)
    (steps : List Step) :
    Window cells (steps.foldl (fun history step => history.extend (step.effect profile)) history)
      (steps.foldl (fun buffer step => (step.effect profile).apply buffer) buffer) := by
  induction steps generalizing history buffer with
  | nil => exact window
  | cons step rest ih => exact ih (window.apply (step.effect profile))

def after (cells : Vector UInt8 capacity) (profile : Profile) (steps : List Step) :
    Buffer capacity :=
  (Step.final profile ⟨ofCells cells⟩ steps).device

theorem window_after (cells : Vector UInt8 capacity) (profile : Profile) (steps : List Step) :
    Window cells (Step.history profile steps) (after cells profile steps) := by
  rw [after, Step.device_final]
  exact (Window.ofCells cells).steps profile steps

/-- Printing into fresh cells stores what fits of what is printed, and leaves the other cells. -/
private theorem print_ofCells (cells : Vector UInt8 capacity) (profile : Profile)
    (format : List UInt8) (arguments : List Argument) :
    (print profile format arguments (ofCells cells)).sink.length =
        min capacity (printBytes profile format arguments).length ∧
      (print profile format arguments (ofCells cells)).sink.cells.toList =
        (printBytes profile format arguments).take capacity ++
          cells.toList.drop (printBytes profile format arguments).length := by
  have window := (Window.ofCells cells).writeEach (printBytes profile format arguments)
  rw [print_sink_lawful]
  exact ⟨window.length, window.cells_of_send⟩

/-- After any session, and so after each of its steps, a buffer is a window on the bytes sent to it.
It is empty if it stores nothing, and counts more than it stores if the bytes since the last clear
did not fit. A call that prints into cells stores what fits of what the same call prints to a
collector, counts that, and leaves the other cells as they are. -/
theorem session_is_window (cells : Vector UInt8 capacity) (profile : Profile) :
    (∀ steps : List Step,
      Window cells (Step.history profile steps) (after cells profile steps) ∧
      ((after cells profile steps).isEmpty = true ↔ (after cells profile steps).length = 0) ∧
      ((after cells profile steps).length < (after cells profile steps).requested ↔
        (after cells profile steps).toList ≠ (Step.history profile steps).current)) ∧
    ∀ (format : List UInt8) (operands : List Call.Operand) (plain : Call.Expansion Call.Operand)
      (output : Printed Collector),
      Call.expand .plain format operands = .ok plain →
      plain.print? profile Collector.empty = some output →
      ∃ expansion stored, Call.expand .buffer format operands = .ok expansion ∧
        expansion.print? profile (ofCells cells) = some stored ∧
        stored.sink.length = min capacity output.sink.toList.length ∧
        stored.sink.cells.toList =
          output.sink.toList.take capacity ++ cells.toList.drop output.sink.toList.length := by
  constructor
  · intro steps
    have window := window_after cells profile steps
    exact ⟨window, isEmpty_iff _, window.length_lt_requested_iff⟩
  · intro format operands plain output accepted printed
    obtain ⟨arguments, wrapped, rfl⟩ := Option.map_eq_some_iff.mp printed
    -- Both forms of the call have the same format, so they are accepted alike.
    refine ⟨plain, print profile plain.format arguments (ofCells cells), accepted, ?_,
      print_ofCells cells profile plain.format arguments⟩
    rw [Call.Expansion.print?, wrapped, Option.map_some]

/-- After `ab%d`, a clear and one more byte, three cells still hold the second and the third byte of
the first epoch. Of `%s!` with a text of three bytes, three cells store the text. -/
theorem session_is_window_reused :
    Window #v[35, 35, 35] { past := [[97, 98, 52, 50]], current := [122] }
      (after #v[35, 35, 35] { wide := true }
        [.print (utf8 "ab%d") [.int 42], .clear, .write 122]) ∧
    (after #v[35, 35, 35] { wide := true }
      [.print (utf8 "ab%d") [.int 42], .clear, .write 122]).cells.toList = [122, 98, 52] ∧
    ∃ expansion stored,
      Call.expand .buffer (utf8 "%s!") [.text { bytes := [104, 101, 121], address := 4096 }] =
        .ok expansion ∧
      expansion.print? { wide := true } (ofCells #v[35, 35, 35]) = some stored ∧
      stored.sink.length = 3 ∧ stored.sink.cells.toList = [104, 101, 121] := by
  obtain ⟨session, call⟩ := session_is_window #v[35, 35, 35] { wide := true }
  obtain ⟨window, _⟩ := session [.print (utf8 "ab%d") [.int 42], .clear, .write 122]
  have sent : Step.history { wide := true }
      [.print (utf8 "ab%d") [.int 42], .clear, .write 122] =
        { past := [[97, 98, 52, 50]], current := [122] } := by
    decide +kernel
  have accepted : Call.expand .plain (utf8 "%s!")
      [Call.Operand.text { bytes := [104, 101, 121], address := 4096 }] =
      .ok { format := utf8 "%s!"
            arguments := [(.text, .text { bytes := [104, 101, 121], address := 4096 })] } := by
    decide
  obtain ⟨expansion, stored, expanded, printed, length, cells⟩ := call _ _ _ _ accepted rfl
  refine ⟨sent ▸ window, by decide +kernel, expansion, stored, expanded, printed,
    length.trans ?_, cells.trans ?_⟩
  · decide +kernel
  · decide +kernel

end Buffer

end ByteFormat
