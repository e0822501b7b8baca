import BufferPool.Word

/-!
# Backing memory

A memory is a row of bytes of fixed size that reads as zero until it is written. Only the part up to the
last byte ever written is stored. Several memories together form a `Heap`, which names each by a
number; a chunk of the pool has one of them behind it.

The view of a memory is `byteAt`: `read` collects it, `write` replaces it on one range.

Whether a memory can be had is up to the system, which may refuse any attempt, and refuses every size
from `Memory.limit` on.
-/

namespace BufferPool

/-- `n` zero bytes. -/
def zeroBytes (n : Nat) : ByteArray :=
  n.fold (fun _ _ bytes => bytes.push 0) (ByteArray.emptyWithCapacity n)

/-- A row of `size` bytes; those past the stored ones are zero. -/
structure Memory where
  size : Nat
  stored : ByteArray

namespace Memory

/-- Memories of this size and above cannot be had. -/
def limit : Nat := 1 <<< 63

/-- A memory of `size` zero bytes, none if it cannot be had. -/
def zeroed? (size : Nat) : Option Memory :=
  if size < limit then some ⟨size, .empty⟩ else none

/-- The byte at a position. -/
def byteAt (m : Memory) (position : Nat) : UInt8 :=
  if h : position < m.stored.size then m.stored[position] else 0

/-- Whether the range of `length` bytes at `position` is inside the memory. -/
def covers (m : Memory) (position length : Nat) : Bool :=
  position + length ≤ m.size && position + length < Word.bound

/-- Refuses a range that is not inside the memory. -/
def check (m : Memory) (position length : Nat) : Checked Unit :=
  .guard (m.covers position length) (.outsideMemory position length m.size)

/-- The bytes of a range that is inside the memory. -/
def slice (m : Memory) (position length : Nat) : ByteArray :=
  let found := m.stored.extract position (position + length)
  if found.size = length then found else found ++ zeroBytes (length - found.size)

/-- The memory with `bytes` in place of the range of that length at `position`. -/
def overwrite (m : Memory) (position : Nat) (bytes : ByteArray) : Memory :=
  let missing := position + bytes.size - m.stored.size
  let stored := if missing = 0 then m.stored else m.stored ++ zeroBytes missing
  { m with stored := bytes.copySlice 0 stored position bytes.size }

end Memory

/-- The number of a memory in its heap. -/
abbrev BlockId := Nat

/-- The attempts to get a memory that the system refuses: the number of an attempt, counted from 0, and
the size asked for. -/
abbrev Supply := Nat → Nat → Bool

/-- A system that refuses nothing that can be had. -/
def Supply.full : Supply := fun _ _ => false

/-- Memories, each named by its position. -/
structure Heap where
  blocks : Array Memory
  refuses : Supply
  /-- The attempts made so far. -/
  attempts : Nat

namespace Heap

/-- No memory at all. -/
def ofSupply (refuses : Supply) : Heap := ⟨#[], refuses, 0⟩

/-- No memory at all, with nothing refused that can be had. -/
def empty : Heap := ofSupply .full

/-- The memory with a given number. -/
def get (h : Heap) (block : BlockId) : Memory :=
  h.blocks[block]?.getD ⟨0, .empty⟩

/-- Adds a memory, which gets the next number. -/
def add (h : Heap) (m : Memory) : Heap × BlockId :=
  ({ h with blocks := h.blocks.push m }, h.blocks.size)

/-- The heap after one more attempt. -/
def attempted (h : Heap) : Heap := { h with attempts := h.attempts + 1 }

/-- Asks the system for a memory of `size` zero bytes. -/
def obtain? (h : Heap) (size : Nat) : Heap × Option BlockId :=
  if h.refuses h.attempts size then (h.attempted, none)
  else match Memory.zeroed? size with
    | none => (h.attempted, none)
    | some m =>
      let (h, block) := h.attempted.add m
      (h, some block)

/-- Refuses a range that is not inside one memory. -/
def check (h : Heap) (block : BlockId) (position length : Nat) : Checked Unit :=
  (h.get block).check position length

/-- The bytes of a range that is inside one memory. -/
def slice (h : Heap) (block : BlockId) (position length : Nat) : ByteArray :=
  (h.get block).slice position length

/-- The heap with `bytes` in place of a range of one memory. -/
def overwrite (h : Heap) (block : BlockId) (position : Nat) (bytes : ByteArray) : Heap :=
  { h with blocks := h.blocks.modify block fun m => m.overwrite position bytes }

/-- The heap with a range of one memory copied to a position in another, or in the same one. The bytes
arrive as they were before, also where the two ranges overlap. -/
def transfer (h : Heap) (source : BlockId) (position : Nat) (target : BlockId)
    (targetPosition length : Nat) : Heap :=
  let bytes := h.slice source position length
  h.overwrite target targetPosition bytes

/-- Reads a range of one memory. -/
def read (h : Heap) (block : BlockId) (position length : Nat) : Checked ByteArray := do
  h.check block position length
  return h.slice block position length

/-- Writes a range of one memory. -/
def write (h : Heap) (block : BlockId) (position : Nat) (bytes : ByteArray) : Checked Heap := do
  h.check block position bytes.size
  return h.overwrite block position bytes

/-- Copies a range of one memory to another, or inside the same one. -/
def copy (h : Heap) (source : BlockId) (position : Nat) (target : BlockId)
    (targetPosition length : Nat) : Checked Heap := do
  h.check source position length
  h.check target targetPosition length
  return h.transfer source position target targetPosition length

end Heap

end BufferPool
