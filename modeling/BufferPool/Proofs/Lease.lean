import BufferPool.Chunk
import BufferPool.Proofs.Size

/-!
# Leases and the sizes of requests

A lease has the region that a request for its length would get (`Lease.Sized`). A change of the length that
keeps the region is one that keeps the size of the request; the only such change for which a region is given
up is a shrinking to half of the smallest region.
-/

namespace BufferPool

/-- The region of a lease is the one that a request for its length gets. -/
structure Lease.Sized (l : Lease) (chunkSize : Nat) : Prop where
  unpooled : l.location = .unpooled ↔ chunkSize < l.length
  region : l.maxLength = Size.rounded l.length chunkSize

/-- Whether a pooled lease keeps its region when its length changes. -/
def Lease.keepsRegion (l : Lease) (length : Nat) : Bool :=
  if l.length < length then length ≤ l.maxLength else Size.shrinksInPlace length l.maxLength

namespace Lease.Sized

open Size

variable {l : Lease} {c : PoolConfig} {n : Nat}

/-- A lease with a chunk of its own covers it. -/
theorem own (h : l.Sized c.chunkSize) (location : l.location = .unpooled) : l.maxLength = l.length := by
  have above := h.unpooled.1 location
  rw [h.region, rounded, if_pos (Nat.le_of_lt above)]

theorem length_le (h : l.Sized c.chunkSize) (pooled : l.location ≠ .unpooled) : l.length ≤ c.chunkSize :=
  Nat.le_of_not_lt fun above => pooled (h.unpooled.2 above)

/-- A pooled lease is not larger than a chunk. -/
theorem region_le (h : l.Sized c.chunkSize) (E : c.Exact) (pooled : l.location ≠ .unpooled) :
    l.maxLength ≤ c.chunkSize := by
  rw [h.region]
  exact E.rounded_le (h.length_le pooled)

theorem isRounded (h : l.Sized c.chunkSize) (E : c.Exact) (pooled : l.location ≠ .unpooled) :
    IsRounded l.maxLength := by
  rw [h.region]
  exact E.isRounded (h.length_le pooled)

/-- The region stays where a request for the new length would get one of its size, unless the lease shrinks to
half of the smallest region. -/
theorem keepsRegion_iff (h : l.Sized c.chunkSize) (E : c.Exact) (pooled : l.location ≠ .unpooled)
    (other : n ≠ l.length) : l.keepsRegion n = true ↔ rounded n c.chunkSize = l.maxLength ∧
      ¬ (l.maxLength = step ∧ 1 ≤ n ∧ n ≤ 8 ∧ n < l.length) := by
  have most := h.region_le E pooled
  have shape := h.isRounded E pooled
  unfold keepsRegion
  split
  · rename_i more
    rw [decide_eq_true_iff, and_iff_left fun exception => Nat.lt_asymm more exception.2.2.2]
    constructor
    · intro fits
      have below : n ≤ c.chunkSize := Nat.le_trans fits most
      rw [h.region] at shape fits ⊢
      exact rounded_eq_of_between shape (E.isRounded below) (Nat.le_of_lt more) fits
    · intro same
      exact same ▸ le_rounded n c.chunkSize
  · have less : n < l.length := by omega
    have fits : l.length ≤ l.maxLength := h.region ▸ le_rounded l.length c.chunkSize
    rw [shrinksInPlace_iff shape (Nat.lt_of_lt_of_le less fits) most, and_iff_left less]

/-- A lease that keeps its region is as large as a new one would be. -/
theorem withLength (h : l.Sized c.chunkSize) (E : c.Exact) (pooled : l.location ≠ .unpooled)
    (other : n ≠ l.length) (keeps : l.keepsRegion n = true) :
    ({ l with length := n } : Lease).Sized c.chunkSize where
  unpooled := by
    have fits : n ≤ l.maxLength := ((h.keepsRegion_iff E pooled other).1 keeps).1 ▸ le_rounded n c.chunkSize
    have below := Nat.le_trans fits (h.region_le E pooled)
    exact iff_of_false pooled (Nat.not_lt.2 below)
  region := ((h.keepsRegion_iff E pooled other).1 keeps).1.symm

end Lease.Sized

end BufferPool
