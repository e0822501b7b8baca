import BufferPool.Word

/-!
# Configuration of a pool

The figures that a pool is built from, the rules they have to meet, and what is said when they do not.
-/

namespace BufferPool

/-- The figures of a pool. -/
structure PoolConfig where
  /-- The size of a page in bytes. -/
  pageSize : Nat := 8192
  /-- A chunk has 2 to this power pages. -/
  maxOrder : Nat := 11
  /-- The number of chunks that the pool may hold, 0 for no limit. -/
  maxChunks : Nat := 0
  /-- The number of idle cores kept for reuse. -/
  recyclerCapacity : Nat := 4096
  /-- Whether the last idle subpage of a class keeps its page. -/
  keepLastSubpage : Bool := true
  /-- The ceiling of buffers that are asked for without one. -/
  defaultMaxCapacity : Nat := 2147483647
deriving DecidableEq

/-- A figure that breaks a rule. -/
inductive ConfigFault where
  | pageSize (bytes : Nat)
  | maxOrder (order : Nat)
  | chunkTooLarge (pageSize order : Nat)
  | noDefaultCapacity
  | noSyncInterval
deriving DecidableEq

/-- A broken rule in words. -/
def ConfigFault.message : ConfigFault → String
  | pageSize bytes => s!"page_size must be a power of two >= 4096, got {bytes}"
  | maxOrder order => s!"max_order must be <= 14, got {order}"
  | chunkTooLarge page order => s!"chunk size {page} << {order} exceeds 1 GiB"
  | noDefaultCapacity => "default_max_capacity must be > 0"
  | noSyncInterval => "sync_interval_ms must be > 0"

namespace PoolConfig

/-- The smallest page. -/
def minPageSize : Nat := 4096

/-- The largest order. -/
def orderLimit : Nat := 14

/-- The largest chunk. -/
def chunkLimit : Nat := 1 <<< 30

/-- The size of a chunk, kept to 64 bits. -/
def chunkSize (c : PoolConfig) : Nat := Word.shiftLeft c.pageSize c.maxOrder

/-- The number of pages of a chunk. -/
def pagesPerChunk (c : PoolConfig) : Nat := Word.shiftLeft 1 c.maxOrder

/-- The first broken rule. -/
def validate (c : PoolConfig) : Except ConfigFault Unit :=
  if !Word.isPowerOfTwo c.pageSize ∨ c.pageSize < minPageSize then .error (.pageSize c.pageSize)
  else if orderLimit < c.maxOrder then .error (.maxOrder c.maxOrder)
  else if chunkLimit < c.chunkSize then .error (.chunkTooLarge c.pageSize c.maxOrder)
  else if c.defaultMaxCapacity = 0 then .error .noDefaultCapacity
  else .ok ()

end PoolConfig

end BufferPool
