import BufferPool.Text.Written

/-!
# Refused requests

A request that the pool cannot serve is refused, and the refusal says why. The pool and every buffer
stay as they were.
-/

namespace BufferPool

/-- Why a request was refused. -/
inductive Refusal where
  /-- The capacity asked for is above the ceiling of the buffer. -/
  | capacityExceeded (requested max : Nat)
  /-- The bytes asked for are not all inside the buffer. -/
  | outOfBounds (index length capacity : Nat)
  /-- Every chunk is taken and no further one may be created. -/
  | exhausted (chunks chunkSize : Nat)
  /-- The backing memory asked for cannot be had. -/
  | outOfMemory (bytes : Nat)
deriving DecidableEq

namespace Refusal

/-- The kind of a refusal. -/
def kind : Refusal → String
  | capacityExceeded .. => "CapacityExceeded"
  | outOfBounds .. => "IndexOutOfBounds"
  | exhausted .. => "Exhausted"
  | outOfMemory .. => "OutOfMemory"

/-- A refusal as a sentence. -/
def message : Refusal → String
  | capacityExceeded requested max => s!"capacity {requested} exceeds maximum capacity {max}"
  | outOfBounds index length capacity =>
    s!"index {index} with length {length} out of bounds for capacity {capacity}"
  | exhausted chunks chunkSize => s!"arena exhausted: {chunks} chunks of {chunkSize} bytes in use"
  | outOfMemory bytes => s!"failed to allocate {bytes} bytes of unpooled memory"

/-- A refusal as a written record of its kind and figures. -/
def written : Refusal → String
  | capacityExceeded requested max =>
    Text.record "CapacityExceeded" [("requested", toString requested), ("max", toString max)]
  | outOfBounds index length capacity =>
    Text.record "IndexOutOfBounds"
      [("index", toString index), ("length", toString length), ("capacity", toString capacity)]
  | exhausted chunks chunkSize =>
    Text.record "Exhausted" [("chunks", toString chunks), ("chunk_size", toString chunkSize)]
  | outOfMemory bytes => s!"OutOfMemory({bytes})"

end Refusal

/-- The answer to a request that may be refused. -/
abbrev Answered (α : Type) := Except Refusal α

end BufferPool
