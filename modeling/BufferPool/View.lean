import BufferPool.Buffer

/-!
# Views

A view shares the core of a buffer and has cursors of its own. A duplicate covers the buffer as far as
it reaches at any time; a slice covers a fixed range of it. A view never grows, and it holds a reference:
the lease returns only when the buffer and all its views are gone.

A slice keeps its length when the buffer shrinks. Every access checks the range twice: against the view,
and where it falls in the buffer, against the buffer.
-/

namespace BufferPool

/-- A window on a core, with cursors of its own. -/
structure View where
  core : CoreId
  /-- Where the window starts in the buffer. -/
  start : Nat
  /-- The length of a slice; a duplicate follows the buffer. -/
  length : Option Nat
  reader : Nat
  writer : Nat
deriving DecidableEq

namespace View

/-- The bytes covered. -/
def capacity (v : View) (p : Pool) : Nat :=
  match v.length with
  | some length => length
  | none => (p.core v.core).capacity

/-- The bytes written and not read yet. -/
def readable (v : View) : Checked Nat := Word.sub v.writer v.reader

/-- A window on `length` bytes from `start` on, all of them readable. -/
def ofRange (core : CoreId) (start length : Nat) : View := ⟨core, start, some length, 0, length⟩

/-- Sets both cursors. -/
def setIndex (v : View) (p : Pool) (reader writer : Nat) : Answered View :=
  match checkCursors reader writer (v.capacity p) with
  | .error refusal => .error refusal
  | .ok () => .ok { v with reader := reader, writer := writer }

/-- The bytes of a range; the cursors stay. -/
def getBytes (v : View) (p : Pool) (index length : Nat) : Checked (Answered ByteArray) := do
  match checkRange index length (v.capacity p) with
  | .error refusal => return .error refusal
  | .ok () => p.getBytes v.core (← Word.add v.start index) length

/-- Replaces the bytes of a range; the cursors stay. -/
def setBytes (v : View) (p : Pool) (index : Nat) (bytes : ByteArray) :
    Checked (Pool × Answered Unit) := do
  match checkRange index bytes.size (v.capacity p) with
  | .error refusal => return (p, .error refusal)
  | .ok () => p.setBytes v.core (← Word.add v.start index) bytes

/-- Takes bytes from the reader. -/
def read (v : View) (p : Pool) (length : Nat) : Checked (Answered (View × ByteArray)) := do
  if (← v.readable) < length then
    return .error (.outOfBounds v.reader length v.writer)
  match ← v.getBytes p v.reader length with
  | .error refusal => return .error refusal
  | .ok bytes => return .ok ({ v with reader := ← Word.add v.reader length }, bytes)

/-- Appends bytes at the writer, inside the window. -/
def write (v : View) (p : Pool) (bytes : ByteArray) : Checked (Pool × Answered View) := do
  match ← v.setBytes p v.writer bytes with
  | (p, .error refusal) => return (p, .error refusal)
  | (p, .ok ()) => return (p, .ok { v with writer := ← Word.add v.writer bytes.size })

/-- The bytes between the cursors. -/
def copyReadable (v : View) (p : Pool) : Checked (Answered ByteArray) := do
  let readable ← v.readable
  .guard (readable < Memory.limit) .copyTooLarge
  v.getBytes p v.reader readable

/-- Another view with the same window and cursors. -/
def duplicate (v : View) (p : Pool) : Checked (Pool × View) := do
  return (← p.retain v.core, v)

/-- A narrower view, its range counted from the start of this one. -/
def slice (v : View) (p : Pool) (index length : Nat) : Checked (Pool × Answered View) := do
  match checkRange index length (v.capacity p) with
  | .error refusal => return (p, .error refusal)
  | .ok () =>
    let p ← p.retain v.core
    return (p, .ok (.ofRange v.core (← Word.add v.start index) length))

/-- Gives the view up. -/
def drop (v : View) (p : Pool) : Checked Pool := p.release v.core

/-- A view as a written record. -/
def written (v : View) (p : Pool) : String :=
  Text.record "DerivedBuf"
    [("adjustment", toString v.start), ("ridx", toString v.reader), ("widx", toString v.writer),
      ("cap", toString (v.capacity p))]

end View

namespace Buffer

/-- A view of the whole buffer with the same cursors. -/
def duplicate (b : Buffer) (p : Pool) : Checked (Pool × View) := do
  let core := p.core b.core
  return (← p.retain b.core, ⟨b.core, 0, none, core.reader, core.writer⟩)

/-- A view of a range of the buffer. -/
def slice (b : Buffer) (p : Pool) (index length : Nat) : Checked (Pool × Answered View) := do
  match checkRange index length (b.capacity p) with
  | .error refusal => return (p, .error refusal)
  | .ok () => return (← p.retain b.core, .ok (.ofRange b.core index length))

/-- A view of the bytes between the cursors. -/
def sliceReadable (b : Buffer) (p : Pool) : Checked (Pool × View) := do
  let core := p.core b.core
  let length ← core.readable
  return (← p.retain b.core, .ofRange b.core core.reader length)

end Buffer

end BufferPool
