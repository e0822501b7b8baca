import BufferPool.Size.Class

/-!
# Counters

One counter for each kind of event in the life of a pool.
-/

namespace BufferPool

/-- How often each event happened. -/
structure Counters where
  leasedTiny : Nat := 0
  leasedSmall : Nat := 0
  leasedNormal : Nat := 0
  leasedHuge : Nat := 0
  failed : Nat := 0
  returnedPooled : Nat := 0
  returnedUnpooled : Nat := 0
  resizedInPlace : Nat := 0
  moved : Nat := 0
  chunksCreated : Nat := 0
  chunksDestroyed : Nat := 0
  subpagesRetired : Nat := 0
  recyclerHits : Nat := 0
  recyclerMisses : Nat := 0
deriving DecidableEq

/-- An event that is counted. -/
inductive Event where
  | leased (kind : Size.Class)
  | failed
  | returnedPooled
  | returnedUnpooled
  | resizedInPlace
  | moved
  | chunkCreated
  | chunkDestroyed
  | subpageRetired
  | recyclerHit
  | recyclerMiss
deriving DecidableEq

namespace Counters

/-- Counts an event. -/
def count (c : Counters) : Event → Counters
  | .leased (.tiny _) => { c with leasedTiny := c.leasedTiny + 1 }
  | .leased (.small _) => { c with leasedSmall := c.leasedSmall + 1 }
  | .leased .normal => { c with leasedNormal := c.leasedNormal + 1 }
  | .leased .huge => { c with leasedHuge := c.leasedHuge + 1 }
  | .failed => { c with failed := c.failed + 1 }
  | .returnedPooled => { c with returnedPooled := c.returnedPooled + 1 }
  | .returnedUnpooled => { c with returnedUnpooled := c.returnedUnpooled + 1 }
  | .resizedInPlace => { c with resizedInPlace := c.resizedInPlace + 1 }
  | .moved => { c with moved := c.moved + 1 }
  | .chunkCreated => { c with chunksCreated := c.chunksCreated + 1 }
  | .chunkDestroyed => { c with chunksDestroyed := c.chunksDestroyed + 1 }
  | .subpageRetired => { c with subpagesRetired := c.subpagesRetired + 1 }
  | .recyclerHit => { c with recyclerHits := c.recyclerHits + 1 }
  | .recyclerMiss => { c with recyclerMisses := c.recyclerMisses + 1 }

/-- All counters in the order in which they are reported. -/
def toList (c : Counters) : List Nat :=
  [c.leasedTiny, c.leasedSmall, c.leasedNormal, c.leasedHuge, c.failed, c.returnedPooled,
    c.returnedUnpooled, c.resizedInPlace, c.moved, c.chunksCreated, c.chunksDestroyed,
    c.subpagesRetired, c.recyclerHits, c.recyclerMisses]

/-- The counters read back from their list, those missing being zero. -/
def ofList (values : List Nat) : Counters :=
  let nth (k : Nat) := values.getD k 0
  { leasedTiny := nth 0, leasedSmall := nth 1, leasedNormal := nth 2, leasedHuge := nth 3
    failed := nth 4, returnedPooled := nth 5, returnedUnpooled := nth 6, resizedInPlace := nth 7
    moved := nth 8, chunksCreated := nth 9, chunksDestroyed := nth 10, subpagesRetired := nth 11
    recyclerHits := nth 12, recyclerMisses := nth 13 }

/-- Leases granted, of all classes. -/
def leased (c : Counters) : Nat :=
  c.leasedTiny + c.leasedSmall + c.leasedNormal + c.leasedHuge

/-- Leases granted and not returned yet, at least 0. -/
def live (c : Counters) : Nat :=
  c.leased - (c.returnedPooled + c.returnedUnpooled)

end Counters

end BufferPool
