import BufferPool.Arena.Lease
import BufferPool.Arena.Return
import BufferPool.Arena.Stats
import BufferPool.Recycler
import BufferPool.Size.Growth

/-!
# The pool

The pool joins the arena with the cores that hold its leases. A request makes a core ready and binds a
lease to it; the core counts its references, and the last one to go returns the lease and parks the
core. A lease that has become too small or too large is exchanged for another one, bytes included.

A request that is refused leaves every core and the arena as they were.
-/

namespace BufferPool

/-- The arena, the cores, and the number of leases exchanged. -/
structure Pool where
  arena : Arena
  store : CoreStore
  moves : Nat

/-- What a pool shows of itself. -/
structure PoolStats where
  chunks : Nat
  usedPages : Nat
  activeSubpages : Nat
  activeLeases : Nat
  moves : Nat
  idleCores : Nat
deriving DecidableEq

/-- The figures of a pool as a written record. -/
def PoolStats.written (s : PoolStats) : String :=
  Text.record "ArenaStats"
    [("chunks", toString s.chunks), ("used_pages", toString s.usedPages),
      ("active_subpages", toString s.activeSubpages), ("active_leases", toString s.activeLeases),
      ("reallocations", toString s.moves), ("idle_handles", toString s.idleCores)]

namespace Pool

/-- A pool without chunks and cores. -/
def ofConfig (config : PoolConfig) (supply : Supply) : Pool where
  arena := .ofConfig config supply
  store := .empty config.recyclerCapacity
  moves := 0

/-- A pool that gets its memory from a given system, if its figures break no rule. -/
def createOn (supply : Supply) (config : PoolConfig) : Except ConfigFault Pool := do
  config.validate
  return .ofConfig config supply

/-- A pool that gets every memory that can be had, if its figures break no rule. -/
def create (config : PoolConfig) : Except ConfigFault Pool := createOn .full config

/-- The configuration of the pool. -/
def config (p : Pool) : PoolConfig := p.arena.config

/-- A core by its number. -/
def core (p : Pool) (id : CoreId) : Core := p.store.get id

/-- Changes one core. -/
def modifyCore (p : Pool) (id : CoreId) (f : Core → Core) : Pool :=
  { p with store := p.store.modify id f }

/-- Changes the contents of the memories. -/
def modifyHeap (p : Pool) (f : Heap → Heap) : Pool :=
  { p with arena := { p.arena with heap := f p.arena.heap } }

/-- The pool with an event counted. -/
def count (p : Pool) (event : Event) : Pool :=
  { p with arena := p.arena.count event }

/-- The present figures of the pool. -/
def stats (p : Pool) : Checked PoolStats := do
  return {
    chunks := p.arena.chunks.size
    usedPages := ← p.arena.usedPages
    activeSubpages := ← p.arena.activeSubpages
    activeLeases := p.arena.activeLeases
    moves := p.moves
    idleCores := p.store.recycler.idle.length }

/-! ## Leases -/

/-- Binds a new lease for `capacity` bytes to a core. -/
def bindNew (p : Pool) (id : CoreId) (capacity : Nat) : Checked (Pool × Answered Lease) := do
  match ← p.arena.lease capacity with
  | (arena, .error refusal) => return ({ p with arena := arena }, .error refusal)
  | (arena, .ok lease) =>
    let core ← (p.core id).bind lease
    return ({ p with arena := arena }.modifyCore id fun _ => core, .ok lease)

/-- A core made ready for a lease. -/
def obtainCore (p : Pool) (maxCapacity : Nat) : Pool × CoreId :=
  let (store, id, waited) := p.store.obtain maxCapacity
  ({ p with store := store }.count (if waited then .recyclerHit else .recyclerMiss), id)

/-- Parks a core that has no lease. -/
def park (p : Pool) (id : CoreId) : Checked Pool := do
  return { p with store := ← p.store.park id }

/-- A core with a lease of `capacity` bytes that may grow to `maxCapacity`. -/
def allocate (p : Pool) (capacity maxCapacity : Nat) : Checked (Pool × Answered CoreId) := do
  if maxCapacity < capacity then
    return (p, .error (.capacityExceeded capacity maxCapacity))
  let (p, id) := p.obtainCore maxCapacity
  match ← p.bindNew id capacity with
  | (p, .ok _) => return (p, .ok id)
  | (p, .error refusal) => return (← p.park id, .error refusal)

/-- A core with a lease of `capacity` bytes and the ceiling that the configuration gives. -/
def allocateDefault (p : Pool) (capacity : Nat) : Checked (Pool × Answered CoreId) :=
  p.allocate capacity p.config.defaultMaxCapacity

/-- Takes the lease of a core back and parks the core. Without a lease there is nothing to do. -/
def reclaim (p : Pool) (id : CoreId) : Checked Pool := do
  match (p.core id).lease with
  | none => return p
  | some lease =>
    let p := p.modifyCore id fun c => { c with lease := none }
    let arena ← p.arena.takeBack lease
    { p with arena := arena }.park id

/-- Takes a reference on a core. -/
def retain (p : Pool) (id : CoreId) : Checked Pool := do
  .guard (0 < (p.core id).refs) .retainedAfterRelease
  return p.modifyCore id fun c => { c with refs := c.refs + 1 }

/-- Returns a reference on a core; with the last one goes the lease. -/
def release (p : Pool) (id : CoreId) : Checked Pool := do
  let refs := (p.core id).refs
  .guard (0 < refs) .releasedAfterRelease
  let p := p.modifyCore id fun c => { c with refs := refs - 1 }
  if refs = 1 then p.reclaim id else return p

/-- Exchanges the lease of a core for one of `capacity` bytes. As many bytes as fit both come along. -/
def move (p : Pool) (id : CoreId) (capacity : Nat) : Checked (Pool × Answered Unit) := do
  match (p.core id).lease with
  | none => .error .movedAfterRelease
  | some old =>
    let p := p.modifyCore id fun c => { c with lease := none }
    match ← p.bindNew id capacity with
    | (p, .error refusal) =>
      return (p.modifyCore id fun c => { c with lease := some old }, .error refusal)
    | (p, .ok new) =>
      let kept := min old.length capacity
      p.arena.heap.check old.chunk.memory old.offset kept
      p.arena.heap.check new.chunk.memory new.offset kept
      let p := p.modifyHeap fun h =>
        h.transfer old.chunk.memory old.offset new.chunk.memory new.offset kept
      let p := p.modifyCore id fun c => c.clamp capacity
      let p := { p with moves := p.moves + 1 }.count .moved
      let arena ← p.arena.takeBack old
      return ({ p with arena := arena }, .ok ())

/-- Uses more bytes of the region that a core has. -/
def growInPlace (p : Pool) (id : CoreId) (capacity : Nat) : Pool :=
  (p.modifyCore id fun c => c.withLength capacity).count .resizedInPlace

/-- Uses fewer bytes of the region that a core has; the cursors come inside. -/
def shrinkInPlace (p : Pool) (id : CoreId) (capacity : Nat) : Pool :=
  (p.modifyCore id fun c => (c.withLength capacity).clamp capacity).count .resizedInPlace

/-- Changes the capacity of a core with a pooled lease, in place where the region allows it. -/
def resizePooled (p : Pool) (id : CoreId) (lease : Lease) (capacity : Nat) :
    Checked (Pool × Answered Unit) :=
  if lease.length < capacity then
    if capacity ≤ lease.maxLength then .ok (p.growInPlace id capacity, .ok ())
    else p.move id capacity
  else if Size.shrinksInPlace capacity lease.maxLength then
    .ok (p.shrinkInPlace id capacity, .ok ())
  else p.move id capacity

/-- Changes the capacity of a core. A private lease always covers its chunk, so it moves. -/
def setCapacity (p : Pool) (id : CoreId) (capacity : Nat) : Checked (Pool × Answered Unit) := do
  let core := p.core id
  if core.maxCapacity < capacity then
    return (p, .error (.capacityExceeded capacity core.maxCapacity))
  let lease ← core.bound
  if capacity = lease.length then return (p, .ok ())
  match lease.location with
  | .pooled _ => p.resizePooled id lease capacity
  | .unpooled => p.move id capacity

/-! ## Bytes -/

/-- The bytes of a range of a core. -/
def getBytes (p : Pool) (id : CoreId) (index length : Nat) : Checked (Answered ByteArray) := do
  let core := p.core id
  match checkRange index length core.capacity with
  | .error refusal => return .error refusal
  | .ok () =>
    let lease ← core.bound
    let position ← Word.add lease.offset index
    return .ok (← p.arena.heap.read lease.chunk.memory position length)

/-- Replaces the bytes of a range of a core. -/
def setBytes (p : Pool) (id : CoreId) (index : Nat) (bytes : ByteArray) :
    Checked (Pool × Answered Unit) := do
  let core := p.core id
  match checkRange index bytes.size core.capacity with
  | .error refusal => return (p, .error refusal)
  | .ok () =>
    let lease ← core.bound
    let position ← Word.add lease.offset index
    p.arena.heap.check lease.chunk.memory position bytes.size
    return (p.modifyHeap fun h => h.overwrite lease.chunk.memory position bytes, .ok ())

end Pool

end BufferPool
