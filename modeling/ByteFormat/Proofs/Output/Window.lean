import ByteFormat.Output.Buffer
import Mathlib.Data.List.Basic

/-! # Buffers are windows

The history of a buffer is what was sent to it, epoch by epoch, an epoch being the time between two
clears. A buffer is a window on its history: it counts the bytes of the current epoch, stores the
first of them, as many as it has cells, and each of its cells holds the byte that came last at its
place, in whichever epoch that was. Every write and every clear keeps it so.
-/

namespace ByteFormat

/-- The bytes sent to a device: those of each epoch that a clear has ended, the earliest first, and
those of the current one. -/
structure History where
  past : List (List UInt8)
  current : List UInt8
deriving DecidableEq, Repr

namespace History

def empty : History :=
  { past := [], current := [] }

def send (history : History) (bytes : List UInt8) : History :=
  { history with current := history.current ++ bytes }

def clear (history : History) : History :=
  { past := history.past ++ [history.current], current := [] }

def epochs (history : History) : List (List UInt8) :=
  history.past ++ [history.current]

/-- The byte that came last at a place, over all epochs. -/
def last? (history : History) (place : Nat) : Option UInt8 :=
  (history.epochs.filterMap (·[place]?)).getLast?

@[simp] theorem current_send (history : History) (bytes : List UInt8) :
    (history.send bytes).current = history.current ++ bytes := rfl

@[simp] theorem send_nil (history : History) : history.send [] = history := by
  simp [send]

private theorem send_append (history : History) (first second : List UInt8) :
    history.send (first ++ second) = (history.send first).send second := by
  simp [send]

/-- The current epoch, if it reaches a place, decides on it. -/
private theorem last?_eq (history : History) (place : Nat) :
    history.last? place =
      history.current[place]?.or (history.past.filterMap (·[place]?)).getLast? := by
  rw [last?, epochs, List.filterMap_append, List.getLast?_append]
  congr 1
  cases found : history.current[place]? <;> simp [found]

/-- A byte comes last at the place behind the current epoch, and nowhere else. -/
private theorem last?_send_single (history : History) (byte : UInt8) (place : Nat) :
    (history.send [byte]).last? place =
      if place = history.current.length then some byte else history.last? place := by
  rw [last?_eq, last?_eq, current_send]
  split
  · next behind => simp [behind]
  · next other =>
    have same : (history.current ++ [byte])[place]? = history.current[place]? := by
      rcases Nat.lt_or_gt_of_ne other with inside | beyond
      · exact List.getElem?_append_left inside
      · have outside : (history.current ++ [byte]).length ≤ place := by
          rw [List.length_append, List.length_singleton]
          omega
        rw [List.getElem?_eq_none outside, List.getElem?_eq_none (by omega)]
    rw [same]
    rfl

private theorem last?_clear (history : History) (place : Nat) :
    history.clear.last? place = history.last? place := by
  simp [last?, epochs, clear, List.filterMap_append]

end History

namespace Buffer

variable {capacity : Nat}

private theorem length_write (buffer : Buffer capacity) (byte : UInt8) :
    (Sink.write buffer byte).length =
      if buffer.length < capacity then buffer.length + 1 else buffer.length := by
  simp only [Sink.write]
  split <;> rfl

private theorem getElem_cells_write (buffer : Buffer capacity) (byte : UInt8) (place : Nat)
    (inside : place < capacity) :
    (Sink.write buffer byte).cells[place] =
      if buffer.length = place then byte else buffer.cells[place] := by
  simp only [Sink.write]
  split
  · next room => exact Vector.getElem_set room inside
  · next full => rw [if_neg (by omega)]

theorem isEmpty_iff (buffer : Buffer capacity) : buffer.isEmpty = true ↔ buffer.length = 0 := by
  simp [isEmpty]

/-- Whether a buffer over the given cells shows the history of what was sent to it. -/
structure Window (cells : Vector UInt8 capacity) (history : History) (buffer : Buffer capacity) :
    Prop where
  /-- Every byte of the current epoch is counted. -/
  requested : buffer.requested = history.current.length
  /-- Bytes are stored until the cells are used up. -/
  length : buffer.length = min capacity history.current.length
  /-- The bytes stored are the first of the current epoch. -/
  stored : buffer.toList = history.current.take buffer.length
  /-- A cell holds the byte that came last at its place, or what it held from the beginning. -/
  holds : ∀ (place : Nat) (inside : place < capacity),
    buffer.cells[place] = (history.last? place).getD cells[place]

namespace Window

variable {cells : Vector UInt8 capacity} {history : History} {buffer : Buffer capacity}

theorem ofCells (cells : Vector UInt8 capacity) : Window cells .empty (.ofCells cells) :=
  ⟨rfl, (Nat.min_zero capacity).symm, rfl, fun _ _ => rfl⟩

theorem write (window : Window cells history buffer) (byte : UInt8) :
    Window cells (history.send [byte]) (Sink.write buffer byte) := by
  have length := window.length
  refine ⟨?_, ?_, ?_, ?_⟩
  · rw [requested_write, window.requested, History.current_send, List.length_append,
      List.length_singleton]
  · rw [length_write, History.current_send, List.length_append, List.length_singleton]
    split <;> omega
  · rw [toList_write, length_write, window.stored, History.current_send]
    split
    · next room =>
      have all : buffer.length = history.current.length := by omega
      rw [all, List.take_length, List.take_of_length_le (by simp)]
    · next full => rw [List.take_append_of_le_length (by omega)]
  · intro place inside
    rw [getElem_cells_write, History.last?_send_single, window.holds place inside]
    by_cases first : buffer.length = place
    · rw [if_pos first, if_pos (by omega), Option.getD_some]
    · rw [if_neg first, if_neg (by omega)]

theorem writeEach (window : Window cells history buffer) (bytes : List UInt8) :
    Window cells (history.send bytes) (Sink.writeEach buffer bytes) := by
  induction bytes generalizing history buffer with
  | nil =>
    rw [History.send_nil]
    exact window
  | cons byte rest ih =>
    rw [← List.singleton_append, History.send_append]
    exact ih (window.write byte)

theorem clear (window : Window cells history buffer) : Window cells history.clear buffer.clear := by
  refine ⟨rfl, (Nat.min_zero capacity).symm, rfl, ?_⟩
  intro place inside
  rw [History.last?_clear]
  exact window.holds place inside

/-- More is counted than stored exactly if the current epoch is not stored whole. -/
theorem length_lt_requested_iff (window : Window cells history buffer) :
    buffer.length < buffer.requested ↔ buffer.toList ≠ history.current := by
  have requested := window.requested
  have length := window.length
  rw [window.stored]
  constructor
  · intro cut whole
    have sizes := congrArg List.length whole
    rw [List.length_take] at sizes
    omega
  · intro cut
    by_contra enough
    exact cut (List.take_of_length_le (by omega))

/-- In the first epoch, the cells that no byte has reached are as they were. -/
theorem cells_of_send {bytes : List UInt8} (window : Window cells (.send .empty bytes) buffer) :
    buffer.cells.toList = bytes.take capacity ++ cells.toList.drop bytes.length := by
  apply List.ext_getElem
  · simp only [Vector.length_toList, List.length_append, List.length_take, List.length_drop]
    omega
  · intro place left right
    have inside : place < capacity := by simpa using left
    have last : (History.send .empty bytes).last? place = bytes[place]? := by
      rw [History.last?_eq]
      exact Option.or_none
    rw [Vector.getElem_toList, window.holds place inside, last]
    by_cases sent : place < bytes.length
    · have early : place < (bytes.take capacity).length := by
        rw [List.length_take]
        omega
      rw [List.getElem?_eq_getElem sent, Option.getD_some, List.getElem_append_left early,
        List.getElem_take]
    · have late : (bytes.take capacity).length ≤ place := by
        rw [List.length_take]
        omega
      have back : bytes.length + (place - (bytes.take capacity).length) = place := by
        rw [List.length_take]
        omega
      rw [List.getElem?_eq_none (by omega), Option.getD_none, List.getElem_append_right late,
        List.getElem_drop, Vector.getElem_toList]
      simp only [back]

end Window

end Buffer

end ByteFormat
