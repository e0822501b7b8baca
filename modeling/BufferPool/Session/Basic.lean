import BufferPool.Session.Registry
import BufferPool.View

/-!
# Sessions

A session is a pool together with the handles that its caller holds, each under a number of the caller's
choice. Handles are buffers, views, cores, and kept references to subpages.

The caller may let go of the pool itself and keep handles. The chunks are destroyed when nobody refers to
the arena any more: not the caller, no core with a lease that somebody holds, and no kept reference to a
subpage.
-/

namespace BufferPool

/-- What a caller can hold. -/
inductive Handle where
  | buffer (buffer : Buffer)
  | view (view : View)
  | core (core : CoreId)
  | subpages (ids : List SubpageId)
deriving DecidableEq

/-- The core that a handle keeps alive. -/
def Handle.core? : Handle → Option CoreId
  | buffer b => some b.core
  | view v => some v.core
  | core id => some id
  | subpages _ => none

/-- A pool and the handles on it. -/
structure Session where
  pool : Pool
  handles : Registry Handle
  /-- Whether the caller holds the pool itself. -/
  attached : Bool
  /-- Whether the chunks are gone because nobody refers to the arena any more. -/
  closed : Bool

namespace Session

/-- A session without handles. -/
def ofPool (pool : Pool) : Session := ⟨pool, .empty, true, false⟩

/-- Whether a handle refers to the arena. -/
def refersToArena (pool : Pool) : Handle → Bool
  | .subpages ids => !ids.isEmpty
  | h => h.core?.any fun id => (pool.core id).isBound

/-- Whether anybody refers to the arena. -/
def isReferenced (s : Session) : Bool :=
  s.attached || s.handles.values.any (refersToArena s.pool) ||
    s.pool.store.recycler.idle.any fun id => (s.pool.core id).isBound

/-- Counts `n` destroyed chunks. -/
def countDestroyed (p : Pool) : (n : Nat) → Pool
  | 0 => p
  | n + 1 => (countDestroyed p n).count .chunkDestroyed

/-- Destroys the chunks once nobody refers to the arena. -/
def settle (s : Session) : Session :=
  if s.closed || s.isReferenced then s
  else { s with pool := countDestroyed s.pool s.pool.arena.chunks.size, closed := true }

/-- Gives a handle up. Cores and kept subpages just go out of sight. -/
def dropHandle (s : Session) (key : Nat) (handle : Handle) : Checked Session := do
  let s := { s with handles := s.handles.erase key }
  match handle with
  | .buffer b => return { s with pool := ← b.drop s.pool }
  | .view v => return { s with pool := ← v.drop s.pool }
  | .core _ => return s
  | .subpages _ => return s

/-- Gives the handles with the given numbers up, where there are such, and counts them. -/
def dropAll (s : Session) : (keys : List Nat) → Checked (Session × Nat)
  | [] => .ok (s, 0)
  | key :: rest => do
    match s.handles.get? key with
    | none => dropAll s rest
    | some handle =>
      let s ← s.dropHandle key handle
      let (s, count) ← dropAll s rest
      return (s, count + 1)

/-- What a handle shows of itself. -/
inductive Shown where
  | buffer (capacity reader writer refs fast : Nat) (locator : Option Locator)
  | view (capacity reader writer refs : Nat)
  | core (capacity reader writer maxCapacity : Nat) (bound : Bool) (refs : Nat)
  | subpages (count : Nat)

/-- The present state of a handle. -/
def showHandle (p : Pool) : Handle → Checked Shown
  | .buffer b => do
    let core := p.core b.core
    let fast ← b.fastCapacity p
    let locator ← b.locator? p
    return .buffer core.capacity core.reader core.writer core.refs fast locator
  | .view v => .ok (.view (v.capacity p) v.reader v.writer (p.core v.core).refs)
  | .core id =>
    let core := p.core id
    .ok (.core core.capacity core.reader core.writer core.maxCapacity core.isBound core.refs)
  | .subpages ids => .ok (.subpages ids.length)

/-- The present state of the handle with a given number, if there is one. -/
def shown? (s : Session) (key : Nat) : Checked (Option Shown) :=
  match s.handles.get? key with
  | some handle => some <$> showHandle s.pool handle
  | none => .ok none

/-- The figures of the pool while the caller holds it. -/
def stats? (s : Session) : Checked (Option PoolStats) :=
  if s.attached then some <$> s.pool.stats else .ok none

/-- How a session ended: the figures of the pool if the caller still held it, and the counters. -/
structure Ending where
  stats : Option PoolStats
  counters : Counters

/-- Gives every handle up in ascending order, and then the pool. -/
def finish (s : Session) : Checked Ending := do
  let (s, _) ← s.dropAll s.handles.keys
  let stats ← s.stats?
  let s := { s with attached := false }.settle
  return ⟨stats, s.pool.arena.counters⟩

end Session

end BufferPool
