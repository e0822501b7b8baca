import BufferPool.Chunk
import BufferPool.Refusal

/-!
# Cores

A core is what a buffer and its views share: the lease, the cursors of the buffer, its ceiling, and the
number of references. It outlives its lease: when the last reference goes, the lease returns to the
arena, and the core waits for the next one.
-/

namespace BufferPool

/-- The number of a core. -/
abbrev CoreId := Nat

/-- The shared part of a buffer and its views. -/
structure Core where
  lease : Option Lease
  reader : Nat
  writer : Nat
  maxCapacity : Nat
  refs : Nat
deriving DecidableEq

namespace Core

/-- A core without a lease. -/
def blank : Core := ⟨none, 0, 0, 0, 0⟩

/-- A core made ready for its next lease. -/
def ready (c : Core) (maxCapacity : Nat) : Core :=
  { c with maxCapacity := maxCapacity, reader := 0, writer := 0, refs := 1 }

/-- The bytes in use, 0 without a lease. -/
def capacity (c : Core) : Nat :=
  match c.lease with
  | some lease => lease.length
  | none => 0

/-- Whether the core has a lease. -/
def isBound (c : Core) : Bool := c.lease.isSome

/-- The lease of a core in use. -/
def bound (c : Core) : Checked Lease :=
  match c.lease with
  | some lease => .ok lease
  | none => .error .usedAfterRelease

/-- Gives the core a lease, which has to fit its chunk. -/
def bind (c : Core) (lease : Lease) : Checked Core := do
  match lease.location with
  | .pooled _ => .guard (!lease.chunk.unpooled) .privateChunk
  | .unpooled => .guard lease.chunk.unpooled .pooledChunk
  .guard (!c.isBound) .alreadyBound
  lease.check
  return { c with lease := some lease }

/-- The core with both cursors inside `capacity`. -/
def clamp (c : Core) (capacity : Nat) : Core :=
  { c with reader := min c.reader capacity, writer := min c.writer capacity }

/-- The core with another length in use. -/
def withLength (c : Core) (length : Nat) : Core :=
  { c with lease := c.lease.map fun l => { l with length := length } }

/-- The bytes written and not read yet. -/
def readable (c : Core) : Checked Nat := Word.sub c.writer c.reader

/-- The bytes that can be written without growing. -/
def writable (c : Core) : Checked Nat := Word.sub c.capacity c.writer

end Core

/-- Refuses a range that does not end inside `capacity`. -/
def checkRange (index length capacity : Nat) : Answered Unit :=
  if index + length ≤ capacity then .ok () else .error (.outOfBounds index length capacity)

/-- Refuses cursors that are out of order or outside `capacity`. -/
def checkCursors (reader writer capacity : Nat) : Answered Unit :=
  if reader ≤ writer ∧ writer ≤ capacity then .ok ()
  else .error (.outOfBounds reader (writer - reader) capacity)

end BufferPool
