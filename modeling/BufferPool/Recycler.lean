import BufferPool.Core

/-!
# Idle cores

Cores without a lease wait in a queue of bounded length, the longest waiting in front. A core that
finds the queue full is dropped; with length 0 every core is.

The queue is one that a library of collections provides, and it follows what is documented of a bounded
queue, first in first out: elements come out in the order in which they were put in, an element that is put
into a full queue is handed back, and nothing comes out of an empty one. The pool relies on no more than that.
Such a queue has room for one element at least, so where no core may wait there is no queue at all.
-/

namespace BufferPool

/-- The queue of idle cores. -/
structure Recycler where
  capacity : Nat
  idle : List CoreId
deriving DecidableEq

namespace Recycler

/-- An empty queue. -/
def empty (capacity : Nat) : Recycler := ⟨capacity, []⟩

/-- Puts a core at the end of the queue if there is room. -/
def park (r : Recycler) (core : CoreId) : Recycler :=
  if r.idle.length < r.capacity then { r with idle := r.idle ++ [core] } else r

/-- Takes the core at the front of the queue. -/
def take? (r : Recycler) : Option (CoreId × Recycler) :=
  match r.idle with
  | core :: rest => some (core, { r with idle := rest })
  | [] => none

end Recycler

/-- All cores ever made, each named by its position, and the queue of those that wait. -/
structure CoreStore where
  cores : Array Core
  recycler : Recycler

namespace CoreStore

/-- No cores yet. -/
def empty (capacity : Nat) : CoreStore := ⟨#[], .empty capacity⟩

/-- A core by its number. -/
def get (s : CoreStore) (id : CoreId) : Core := s.cores[id]?.getD .blank

/-- Changes one core. -/
def modify (s : CoreStore) (id : CoreId) (f : Core → Core) : CoreStore :=
  { s with cores := s.cores.modify id f }

/-- Adds a core, which gets the next number. -/
def add (s : CoreStore) (core : Core) : CoreStore × CoreId :=
  ({ s with cores := s.cores.push core }, s.cores.size)

/-- A core made ready for a lease: one that waited, else a new one. The last part of the answer is
whether it waited. -/
def obtain (s : CoreStore) (maxCapacity : Nat) : CoreStore × CoreId × Bool :=
  match s.recycler.take? with
  | some (id, recycler) =>
    ({ s with recycler := recycler }.modify id fun c => c.ready maxCapacity, id, true)
  | none =>
    let (s, id) := s.add (Core.blank.ready maxCapacity)
    (s, id, false)

/-- Parks a core that has no lease. -/
def park (s : CoreStore) (id : CoreId) : Checked CoreStore := do
  .guard (!(s.get id).isBound) .parkedWhileBound
  return { s with recycler := s.recycler.park id }

end CoreStore

end BufferPool
