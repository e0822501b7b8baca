import BufferPool.Locator
import BufferPool.Memory
import BufferPool.Text.Written

/-!
# Chunks and leases

A chunk is a memory with a number. A pooled chunk is shared by many leases; a private one belongs to
the single lease that covers it. A lease is the right to a region of a chunk: it uses the first `length`
bytes of the region, and may use up to `maxLength` bytes without moving.
-/

namespace BufferPool

/-- A memory that leases are taken from. -/
structure Chunk where
  id : Nat
  memory : BlockId
  size : Nat
  unpooled : Bool
deriving DecidableEq

/-- A chunk as a written record. -/
def Chunk.written (c : Chunk) : String :=
  Text.record "Chunk"
    [("id", toString c.id), ("len", toString c.size), ("unpooled", toString c.unpooled)]

/-- Where a lease lies. -/
inductive Location where
  /-- In a pooled chunk, under this name. -/
  | pooled (locator : Locator)
  /-- In a private chunk that it covers. -/
  | unpooled
deriving DecidableEq

/-- The right to a region of a chunk. -/
structure Lease where
  chunk : Chunk
  location : Location
  /-- The position of the region in its chunk. -/
  offset : Nat
  /-- The bytes in use. -/
  length : Nat
  /-- The bytes of the region. -/
  maxLength : Nat
deriving DecidableEq

namespace Lease

/-- The name of a pooled lease in its chunk. -/
def locator? (l : Lease) : Option Locator :=
  match l.location with
  | .pooled locator => some locator
  | .unpooled => none

/-- Refuses a lease that uses more than its region, or whose region leaves its chunk. -/
def check (l : Lease) : Checked Unit := do
  .guard (l.length ≤ l.maxLength) misfit
  .guard ((← Word.add l.offset l.maxLength) ≤ l.chunk.size) misfit
where
  misfit : Violation := .leaseDoesNotFit l.offset l.length l.maxLength l.chunk.size

end Lease

end BufferPool
