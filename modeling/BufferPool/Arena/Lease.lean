import BufferPool.Arena.Basic

/-!
# Granting leases

A slot comes from the front of the list of its size. If the list is empty, the first free page is
carved for that size, and if there is no free page, a chunk is added. A run of pages comes from the first
chunk that has room for it, or from a new one. A lease larger than a chunk gets a chunk of its own.
-/

namespace BufferPool.Arena

/-- The first run of `length` pages in a row of chunks, with the position of its chunk counted from
`index`. -/
def firstRun? (length : Nat) : (chunks : List PooledChunk) → (index : Nat) →
    Option (Nat × PageMap × Locator)
  | [], _ => none
  | c :: rest, index =>
    match c.pages.takeRun? length with
    | some (pages, run) => some (index, pages, run)
    | none => firstRun? length rest (index + 1)

/-- Whether no further chunk may be added. -/
def isFull (a : Arena) : Bool :=
  a.config.maxChunks != 0 && a.config.maxChunks ≤ a.chunks.size

/-- Adds a chunk and takes its first run of `length` pages. -/
def growTakingRun (a : Arena) (length : Nat) : Checked (Arena × Answered (Nat × Locator)) :=
  if a.isFull then .ok (a, .error (.exhausted a.chunks.size a.chunkSize))
  else match a.heap.obtain? a.chunkSize with
    | (heap, none) => .ok ({ a with heap := heap }, .error (.outOfMemory a.chunkSize))
    | (heap, some block) =>
      let pages := PageMap.ofPages (a.chunkSize / a.config.pageSize) a.config.pageSize
      match pages.takeRun? length with
      | none => .error (.chunkTooSmall length)
      | some (pages, run) =>
        let index := a.chunks.size
        let size := a.chunkSize
        let a := { a with
          heap := heap
          chunks := a.chunks.push ⟨⟨a.nextChunkId, block, size, false⟩, pages⟩
          nextChunkId := a.nextChunkId + 1 }
        .ok (a.count .chunkCreated, .ok (index, run))

/-- Takes the first run of `length` pages of all chunks, adding a chunk if none has room. -/
def takeRun (a : Arena) (length : Nat) : Checked (Arena × Answered (Nat × Locator)) :=
  match firstRun? length a.chunks.toList 0 with
  | some (index, pages, run) => .ok (a.withPages index pages, .ok (index, run))
  | none => a.growTakingRun length

/-- The lease of a slot that was just taken from a subpage. -/
def slotLease (a : Arena) (id : SubpageId) (locator : Locator) (capacity : Nat) :
    Checked Lease := do
  let s ← a.table.get id
  let slot := (locator.slot?.getD 0).toNat
  let c ← a.chunkAt (← a.chunkIndex s.chunk)
  let offset ← Word.add s.offset (← Word.mul slot s.slotSize)
  return ⟨c.chunk, .pooled locator, offset, capacity, s.slotSize⟩

/-- A slot of the subpage at the front of a list, none if the list has nothing to give. -/
def leaseListed? (a : Arena) (head : SubpageId) (size : Nat) :
    Checked (Option (SubpageTable × SubpageId × Locator)) := do
  match ← a.table.front? head with
  | none => return none
  | some id =>
    let s ← a.table.get id
    .guard (s.slotSize == size) (.elementSizeDiffers s.slotSize size)
    match ← a.table.lease id with
    | (table, some locator) => return some (table, id, locator)
    | (_, none) => return none

/-- The subpage of a page, created if the page was never carved before. -/
def subpageFor (a : Arena) (index : Nat) (page : UInt32) : Checked (Arena × SubpageId) := do
  let c ← a.chunkAt index
  match ← c.pages.subpageAt page.toNat with
  | some id => return (a, id)
  | none =>
    let offset ← c.pages.offset page.toNat
    let (table, id) := a.table.insert (.ofPage c.chunk.id page offset a.config.pageSize)
    let pages ← c.pages.recordSubpage page.toNat id
    return ({ a with table := table }.withPages index pages, id)

/-- A slot of a page that is carved for it. -/
def leaseFresh (a : Arena) (head : SubpageId) (size capacity : Nat) :
    Checked (Arena × Answered Lease) := do
  match ← a.takeRun 1 with
  | (a, .error refusal) => return (a, .error refusal)
  | (a, .ok (index, run)) =>
    let (a, id) ← a.subpageFor index run.page
    let table ← a.table.enlist head id size
    match ← table.lease id with
    | (_, none) => .error (.freshPageFull run.page.toNat)
    | (table, some locator) =>
      let a := { a with table := table }
      return (a, .ok (← a.slotLease id locator capacity))

/-- A slot of `size` bytes. -/
def leaseSlot (a : Arena) (size capacity : Nat) : Checked (Arena × Answered Lease) := do
  let head ← a.listHead size
  match ← a.leaseListed? head size with
  | some (table, id, locator) =>
    let a := { a with table := table }
    return (a, .ok (← a.slotLease id locator capacity))
  | none => a.leaseFresh head size capacity

/-- A run of pages of `size` bytes in all. -/
def leaseRun (a : Arena) (size capacity : Nat) : Checked (Arena × Answered Lease) := do
  match ← a.takeRun (size / a.config.pageSize) with
  | (a, .error refusal) => return (a, .error refusal)
  | (a, .ok (index, run)) =>
    let c ← a.chunkAt index
    let offset ← c.pages.offset run.page.toNat
    let size ← c.pages.runSize run.page.toNat
    return (a, .ok ⟨c.chunk, .pooled run, offset, capacity, size⟩)

/-- A private chunk of `capacity` bytes. -/
def leasePrivate (a : Arena) (capacity : Nat) : Arena × Answered Lease :=
  match a.heap.obtain? capacity with
  | (heap, none) => ({ a with heap := heap }, .error (.outOfMemory capacity))
  | (heap, some block) =>
    let chunk : Chunk := ⟨a.nextChunkId, block, capacity, true⟩
    ({ a with heap := heap, nextChunkId := a.nextChunkId + 1 },
      .ok ⟨chunk, .unpooled, 0, capacity, capacity⟩)

/-- A lease from the place that its class says, not yet counted. -/
def grant (a : Arena) (kind : Size.Class) (size capacity : Nat) :
    Checked (Arena × Answered Lease) :=
  match kind with
  | .huge => .ok (a.leasePrivate capacity)
  | .normal => a.leaseRun size capacity
  | _ => a.leaseSlot size capacity

/-- Counts a lease of a chunk that is shared. -/
def countPooled (a : Arena) (kind : Size.Class) : Arena :=
  if kind = .huge then a else { a with activeLeases := a.activeLeases + 1 }

/-- Grants a lease for `capacity` bytes. -/
def lease (a : Arena) (capacity : Nat) : Checked (Arena × Answered Lease) := do
  let size := a.rounded capacity
  let kind ← a.classOf size
  match ← a.grant kind size capacity with
  | (a, .ok lease) => return ((a.countPooled kind).count (.leased kind), .ok lease)
  | (a, .error refusal) => return (a.count .failed, .error refusal)

end BufferPool.Arena
