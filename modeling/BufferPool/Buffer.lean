import BufferPool.Pool

/-!
# Buffers

A buffer is the handle that a request yields. It reads and writes at two cursors of its own, and grows
when it is written past its end. The operations take the pool and, where they change it, give it back.
-/

namespace BufferPool

/-- A handle on a core, with the cursors of the core. -/
structure Buffer where
  core : CoreId
deriving DecidableEq

namespace Buffer

/-- The bytes in use. -/
def capacity (b : Buffer) (p : Pool) : Nat := (p.core b.core).capacity

/-- The largest capacity that the present region serves. -/
def fastCapacity (b : Buffer) (p : Pool) : Checked Nat := do
  return (← (p.core b.core).bound).maxLength

/-- The locator of the lease, none for a private one. -/
def locator? (b : Buffer) (p : Pool) : Checked (Option Locator) := do
  return (← (p.core b.core).bound).locator?

/-- Changes the capacity. The bytes below both capacities stay, the cursors come inside. -/
def setCapacity (b : Buffer) (p : Pool) (capacity : Nat) : Checked (Pool × Answered Unit) :=
  p.setCapacity b.core capacity

/-- Sets both cursors. -/
def setIndex (b : Buffer) (p : Pool) (reader writer : Nat) : Pool × Answered Unit :=
  match checkCursors reader writer (b.capacity p) with
  | .error refusal => (p, .error refusal)
  | .ok () => (p.modifyCore b.core fun c => { c with reader := reader, writer := writer }, .ok ())

/-- Grows until `additional` more bytes can be written. -/
def ensureWritable (b : Buffer) (p : Pool) (additional : Nat) : Checked (Pool × Answered Unit) := do
  let core := p.core b.core
  if additional ≤ (← core.writable) then return (p, .ok ())
  let requested := Word.addClamped core.writer additional
  if core.maxCapacity < requested then
    return (p, .error (.capacityExceeded requested core.maxCapacity))
  p.setCapacity b.core (Size.grown requested core.maxCapacity)

/-- Appends bytes at the writer, growing where necessary. -/
def write (b : Buffer) (p : Pool) (bytes : ByteArray) : Checked (Pool × Answered Unit) := do
  match ← b.ensureWritable p bytes.size with
  | (p, .error refusal) => return (p, .error refusal)
  | (p, .ok ()) =>
    let writer := (p.core b.core).writer
    match ← p.setBytes b.core writer bytes with
    | (p, .error refusal) => return (p, .error refusal)
    | (p, .ok ()) =>
      let writer ← Word.add writer bytes.size
      return (p.modifyCore b.core fun c => { c with writer := writer }, .ok ())

/-- Takes bytes from the reader. -/
def read (b : Buffer) (p : Pool) (length : Nat) : Checked (Pool × Answered ByteArray) := do
  let core := p.core b.core
  if (← core.readable) < length then
    return (p, .error (.outOfBounds core.reader length core.writer))
  match ← p.getBytes b.core core.reader length with
  | .error refusal => return (p, .error refusal)
  | .ok bytes =>
    let reader ← Word.add core.reader length
    return (p.modifyCore b.core fun c => { c with reader := reader }, .ok bytes)

/-- The bytes of a range; the cursors stay. -/
def getBytes (b : Buffer) (p : Pool) (index length : Nat) : Checked (Answered ByteArray) :=
  p.getBytes b.core index length

/-- Replaces the bytes of a range; the cursors stay. -/
def setBytes (b : Buffer) (p : Pool) (index : Nat) (bytes : ByteArray) :
    Checked (Pool × Answered Unit) :=
  p.setBytes b.core index bytes

/-- The bytes between the cursors. -/
def copyReadable (b : Buffer) (p : Pool) : Checked (Answered ByteArray) := do
  let core := p.core b.core
  let readable ← core.readable
  .guard (readable < Memory.limit) .copyTooLarge
  p.getBytes b.core core.reader readable

/-- Gives the handle up. -/
def drop (b : Buffer) (p : Pool) : Checked Pool := p.release b.core

/-- A buffer as a written record. -/
def written (b : Buffer) (p : Pool) : String :=
  let core := p.core b.core
  Text.record "PooledBuf"
    [("ridx", toString core.reader), ("widx", toString core.writer),
      ("cap", toString core.capacity), ("max_cap", toString core.maxCapacity)]

end Buffer

end BufferPool
