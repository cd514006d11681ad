import ByteFormat.Output.Sink

/-! # Bounded buffers

A buffer stores bytes in a fixed number of cells from the first on and drops what does not fit. It
counts both what it stored and what it was asked to store, so that a writer can tell afterwards
whether its output was cut. Clearing forgets the counts and leaves the cells as they are.
-/

namespace ByteFormat

/-- A fixed number of cells, the first `length` of which hold the bytes stored since the last
clear. -/
structure Buffer (capacity : Nat) where
  cells : Vector UInt8 capacity
  length : Nat
  requested : Nat
deriving DecidableEq, Repr

namespace Buffer

variable {capacity : Nat}

/-- A buffer over given cells, with nothing stored. -/
def ofCells (cells : Vector UInt8 capacity) : Buffer capacity :=
  { cells, length := 0, requested := 0 }

/-- The bytes stored since the last clear. -/
def toList (buffer : Buffer capacity) : List UInt8 :=
  buffer.cells.toList.take buffer.length

def isEmpty (buffer : Buffer capacity) : Bool :=
  buffer.length == 0

/-- Forgets what is stored, without touching the cells. -/
def clear (buffer : Buffer capacity) : Buffer capacity :=
  { buffer with length := 0, requested := 0 }

instance : Sink (Buffer capacity) where
  write buffer byte :=
    if room : buffer.length < capacity then
      { cells := buffer.cells.set buffer.length byte room
        length := buffer.length + 1
        requested := buffer.requested + 1 }
    else { buffer with requested := buffer.requested + 1 }

/-- A byte is stored behind the others while there is room, and dropped otherwise. -/
theorem toList_write (buffer : Buffer capacity) (byte : UInt8) :
    (Sink.write buffer byte).toList =
      if buffer.length < capacity then buffer.toList ++ [byte] else buffer.toList := by
  simp only [Sink.write, toList]
  split
  · next room =>
    rw [Vector.toList_set, List.take_succ_eq_append_getElem (by simpa using room)]
    simp [List.take_set_of_le]
  · rfl

@[simp] theorem requested_write (buffer : Buffer capacity) (byte : UInt8) :
    (Sink.write buffer byte).requested = buffer.requested + 1 := by
  simp only [Sink.write]
  split <;> rfl

@[simp] theorem toList_clear (buffer : Buffer capacity) : buffer.clear.toList = [] := rfl

@[simp] theorem cells_clear (buffer : Buffer capacity) : buffer.clear.cells = buffer.cells := rfl

instance : LawfulSink (Buffer capacity) where
  writeBytes_eq _ _ := rfl

end Buffer

end ByteFormat
