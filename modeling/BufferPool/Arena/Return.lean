import BufferPool.Arena.Basic

/-!
# Taking leases back

A slot goes back to its subpage. A subpage that becomes idle gives its page back to the chunk, unless
it is kept for its class. A chunk that becomes empty is destroyed with everything carved from it, unless
it is the only one.
-/

namespace BufferPool.Arena

/-- Removes subpages from a table. -/
def removeAll (table : SubpageTable) : (ids : List SubpageId) → Checked SubpageTable
  | [] => .ok table
  | id :: rest => do
    let (table, _) ← table.remove id
    removeAll table rest

/-- Destroys an empty chunk; the last chunk takes its position. -/
def destroyChunk (a : Arena) (index : Nat) : Checked Arena := do
  let c ← a.chunkAt index
  let table ← removeAll a.table c.pages.subpages
  let chunks := (a.chunks.swapIfInBounds index (a.chunks.size - 1)).pop
  return { a with table := table, chunks := chunks }.count .chunkDestroyed

/-- Returns the run at a page, and the chunk with it if it is empty and not the only one. -/
def returnRun (a : Arena) (index page : Nat) : Checked Arena := do
  let c ← a.chunkAt index
  let pages ← c.pages.returnRun page
  let a := a.withPages index pages
  if pages.isEmpty ∧ 1 < a.chunks.size then a.destroyChunk index else return a

/-- Returns a slot. The answer is whether the page stays carved. -/
def returnSlot (a : Arena) (index : Nat) (page slot : Nat) : Checked (Arena × Bool) := do
  let c ← a.chunkAt index
  match ← c.pages.subpageAt page with
  | none => .error (.pageNotCarved page slot)
  | some id =>
    let head ← a.listHead (← a.table.get id).slotSize
    let (table, stays) ← a.table.giveBack head id slot
    return ({ a with table := table }, stays)

/-- Returns what a locator names in a chunk. -/
def returnPooled (a : Arena) (chunk : Nat) (locator : Locator) : Checked Arena := do
  let index ← a.chunkIndex chunk
  let page := locator.page.toNat
  match locator.slot? with
  | none => a.returnRun index page
  | some slot =>
    let (a, stays) ← a.returnSlot index page slot.toNat
    if stays then return a else (a.count .subpageRetired).returnRun index page

/-- Takes a lease back. A private chunk goes with its lease. -/
def takeBack (a : Arena) (lease : Lease) : Checked Arena := do
  match lease.location with
  | .unpooled => return a.count .returnedUnpooled
  | .pooled locator =>
    let a ← a.returnPooled lease.chunk.id locator
    let activeLeases ← Word.sub a.activeLeases 1
    return { a with activeLeases := activeLeases }.count .returnedPooled

end BufferPool.Arena
