import BufferPool.Metrics.Counters

/-!
# Publishing counters

Counters are published as increments: what a counter grew by since it was last published. A counter that
did not grow publishes nothing. After the increments a gauge is set to the number of leases that are out.
-/

namespace BufferPool

/-- A message to the recorder of metrics. -/
inductive Publication where
  | increment (name : String) (labels : List (String × String)) (amount : Nat)
  | gauge (name : String) (value : Float)

/-- A counter with the name and the labels it is published under. -/
structure PublishedCounter where
  name : String
  labels : List (String × String)
  value : Counters → Nat

namespace Counters

/-- The counters in the order in which they are published. -/
def publishedCounters : List PublishedCounter :=
  [⟨"bufpool_allocations_total", [("class", "tiny")], leasedTiny⟩,
    ⟨"bufpool_allocations_total", [("class", "small")], leasedSmall⟩,
    ⟨"bufpool_allocations_total", [("class", "normal")], leasedNormal⟩,
    ⟨"bufpool_allocations_total", [("class", "huge")], leasedHuge⟩,
    ⟨"bufpool_deallocations_total", [("kind", "pooled")], returnedPooled⟩,
    ⟨"bufpool_deallocations_total", [("kind", "unpooled")], returnedUnpooled⟩,
    ⟨"bufpool_allocation_failures_total", [], failed⟩,
    ⟨"bufpool_resizes_in_place_total", [], resizedInPlace⟩,
    ⟨"bufpool_reallocations_total", [], moved⟩,
    ⟨"bufpool_chunks_created_total", [], chunksCreated⟩,
    ⟨"bufpool_chunks_destroyed_total", [], chunksDestroyed⟩,
    ⟨"bufpool_subpages_retired_total", [], subpagesRetired⟩,
    ⟨"bufpool_recycler_hits_total", [], recyclerHits⟩,
    ⟨"bufpool_recycler_misses_total", [], recyclerMisses⟩]

/-- The gauge of the leases that are out. -/
def liveGauge (c : Counters) : Publication :=
  .gauge "bufpool_live_leases" (UInt64.ofNat c.live).toFloat

/-- The growth of one counter, none if it did not grow. -/
def growth? (last now : Counters) (c : PublishedCounter) : Option Publication :=
  if c.value last < c.value now then
    some (.increment c.name c.labels (c.value now - c.value last))
  else none

/-- What is published when the counters went from `last` to `now`. -/
def publish (last now : Counters) : List Publication :=
  publishedCounters.filterMap (growth? last now) ++ [now.liveGauge]

end Counters

end BufferPool
