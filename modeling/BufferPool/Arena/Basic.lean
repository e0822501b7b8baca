import BufferPool.Chunk
import BufferPool.Config.Pool
import BufferPool.Metrics.Counters
import BufferPool.PageMap
import BufferPool.Refusal
import BufferPool.Subpage.Table

/-!
# The arena

The arena holds the memory of a pool: its chunks, the subpages carved from their pages, and one list of
subpages for each slot size. It grants leases and takes them back; who holds them is not its business.
-/

namespace BufferPool

/-- A chunk whose pages are leased out. -/
structure PooledChunk where
  chunk : Chunk
  pages : PageMap

/-- The memory of a pool and its bookkeeping. -/
structure Arena where
  config : PoolConfig
  table : SubpageTable
  /-- The lists of the tiny sizes. -/
  tinyHeads : Array SubpageId
  /-- The lists of the small sizes. -/
  smallHeads : Array SubpageId
  chunks : Array PooledChunk
  activeLeases : Nat
  nextChunkId : Nat
  heap : Heap
  counters : Counters

namespace Arena

/-- Adds `count` empty lists to a table. -/
def addHeads (table : SubpageTable) : (count : Nat) → SubpageTable × Array SubpageId
  | 0 => (table, #[])
  | n + 1 =>
    let (table, heads) := addHeads table n
    let (table, head) := table.addHead
    (table, heads.push head)

/-- An arena without chunks. -/
def ofConfig (config : PoolConfig) (supply : Supply) : Arena :=
  let (table, tiny) := addHeads (.empty config.keepLastSubpage) Size.tinyClasses
  let (table, small) := addHeads table (Size.smallClasses config.pageSize)
  { config := config
    table := table
    tinyHeads := tiny
    smallHeads := small
    chunks := #[]
    activeLeases := 0
    nextChunkId := 1
    heap := .ofSupply supply
    counters := {} }

/-- The size of a chunk. -/
def chunkSize (a : Arena) : Nat := a.config.chunkSize

/-- The size carved out for a request. -/
def rounded (a : Arena) (request : Nat) : Nat := Size.rounded request a.chunkSize

/-- The class of a rounded size. -/
def classOf (a : Arena) (size : Nat) : Checked Size.Class := do
  let kind := Size.Class.ofSize size a.config.pageSize a.chunkSize
  .guard (kind.isNumbered size) .subtractionUnderflow
  return kind

/-- A list head by its number. -/
def headAt (heads : Array SubpageId) (index : Nat) : Checked SubpageId :=
  match heads[index]? with
  | some head => .ok head
  | none => .error .indexOutOfBounds

/-- The list of a slot size; sizes served as runs or from private chunks have none. -/
def listHead? (a : Arena) (size : Nat) : Checked (Option SubpageId) := do
  match ← a.classOf size with
  | .tiny index => return some (← headAt a.tinyHeads index)
  | .small index => return some (← headAt a.smallHeads index)
  | .normal => return none
  | .huge => return none

/-- The list of a size that is served from slots. -/
def listHead (a : Arena) (size : Nat) : Checked SubpageId := do
  match ← a.listHead? size with
  | some head => return head
  | none => .error (.noClassList size)

/-- The position of a chunk among those held. -/
def chunkIndex (a : Arena) (id : Nat) : Checked Nat :=
  match a.chunks.findIdx? fun c => c.chunk.id == id with
  | some index => .ok index
  | none => .error (.foreignChunk id)

/-- A chunk by its position. -/
def chunkAt (a : Arena) (index : Nat) : Checked PooledChunk :=
  match a.chunks[index]? with
  | some chunk => .ok chunk
  | none => .error .indexOutOfBounds

/-- The arena with the pages of one chunk replaced. -/
def withPages (a : Arena) (index : Nat) (pages : PageMap) : Arena :=
  { a with chunks := a.chunks.modify index fun c => { c with pages := pages } }

/-- The arena with an event counted. -/
def count (a : Arena) (event : Event) : Arena :=
  { a with counters := a.counters.count event }

/-- Every subpage of the chunks held, chunk by chunk. -/
def subpages (a : Arena) : List SubpageId :=
  a.chunks.toList.flatMap fun c => c.pages.subpages

end Arena

end BufferPool
