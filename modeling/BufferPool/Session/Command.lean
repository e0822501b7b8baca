import BufferPool.Session.Basic

/-!
# Commands of a session

Every request that a caller can make, on numbered handles, and the answers to them. The commands of
`Command.isPublic` are the interface of the pool; the others reach past it to single cores.

A command that makes a handle is refused if its number is in use. A command that names an unknown handle,
or one of the wrong kind, or that needs the pool after the caller let go of it, changes nothing.
-/

namespace BufferPool.Session

/-- A request of the caller. -/
inductive Command where
  /-- A buffer with the ceiling of the configuration. -/
  | buffer (key capacity : Nat)
  /-- A buffer with a ceiling of its own. -/
  | allocate (key capacity maxCapacity : Nat)
  /-- Several buffers under successive numbers. -/
  | fill (key count capacity : Nat)
  | drop (key : Nat)
  /-- Gives up the handles `key`, `key + step`, … below `stop`. -/
  | dropRange (key stop step : Nat)
  /-- Lets go of the pool. -/
  | detach
  | duplicate (key source : Nat)
  | slice (key source index length : Nat)
  | sliceReadable (key source : Nat)
  | setCapacity (key capacity : Nat)
  | ensureWritable (key additional : Nat)
  | setIndex (key reader writer : Nat)
  | write (key : Nat) (bytes : ByteArray)
  | setBytes (key index : Nat) (bytes : ByteArray)
  | read (key length : Nat)
  | getBytes (key index length : Nat)
  | copyReadable (key : Nat)
  | info (key : Nat)
  | stats
  | freeSubpages (capacity : Nat)
  | counters
  | subpages
  /-- Keeps references to the present subpages under a number. -/
  | hold (key : Nat)
  /-- Reads kept references. -/
  | held (key : Nat)
  | coreNew (key : Nat)
  | coreReuse (key maxCapacity : Nat)
  | coreRetain (key : Nat)
  | coreRelease (key : Nat)
  | coreReclaim (key : Nat)
  | coreSetIndex (key reader writer : Nat)
  | coreClamp (key capacity : Nat)
  /-- Binds a lease on a new chunk, private unless a locator is given. -/
  | coreBind (key : Nat) (chunk size : Nat) (unpooled : Bool) (location : Location)
      (offset length maxLength : Nat)
  | coreSetCapacity (key capacity : Nat)
  | coreGetBytes (key index length : Nat)
  | coreSetBytes (key index : Nat) (bytes : ByteArray)
  | coreFastCapacity (key : Nat)
  | coreMove (key capacity : Nat)

/-- Whether a command belongs to the interface of the pool. -/
def Command.isPublic : Command → Bool
  | coreNew _ | coreReuse .. | coreRetain _ | coreRelease _ | coreReclaim _ | coreSetIndex ..
  | coreClamp .. | coreBind .. | coreSetCapacity .. | coreGetBytes .. | coreSetBytes ..
  | coreFastCapacity _ | coreMove .. => false
  | _ => true

/-- What a buffer tells of itself. -/
structure BufferInfo where
  written : String
  maxCapacity : Nat
  readable : Nat
  writable : Nat
  pooled : Bool
  locator : Option Locator

/-- The answer to a command. -/
inductive Answer where
  | done
  | refused (refusal : Refusal)
  /-- No handle has the number given. -/
  | noHandle
  /-- The number for a new handle is in use. -/
  | handleInUse
  /-- The caller has let go of the pool. -/
  | noArena
  /-- The handle is of the wrong kind. -/
  | unsupported
  | bytes (bytes : ByteArray)
  | number (n : Nat)
  | text (s : String)
  | counters (c : Counters)
  /-- The leases of new buffers, and why there are no more of them. -/
  | leases (locators : List (Option Locator)) (stopped : Option Refusal)
  | bufferInfo (info : BufferInfo)
  | viewInfo (written : String) (readable : Nat)
  | subpages (list : List (Subpage.Metric × String))

/-- The answer to a request without a result. -/
def Answer.ofUnit : Answered Unit → Answer
  | .ok () => .done
  | .error refusal => .refused refusal

/-- The answer to a request for bytes. -/
def Answer.ofBytes : Answered ByteArray → Answer
  | .ok data => .bytes data
  | .error refusal => .refused refusal

/-- The session with another pool. -/
def withPool (s : Session) (pool : Pool) : Session := { s with pool := pool }

/-- The session with a handle under a number. -/
def withHandle (s : Session) (key : Nat) (handle : Handle) : Session :=
  { s with handles := s.handles.insert key handle }

/-! ## Commands that make handles -/

/-- Makes a buffer. -/
def makeBuffer (s : Session) (key capacity maxCapacity : Nat) : Checked (Session × Answer) := do
  if s.handles.contains key then return (s, .handleInUse)
  if !s.attached then return (s, .noArena)
  match ← s.pool.allocate capacity maxCapacity with
  | (pool, .error refusal) => return (s.withPool pool, .refused refusal)
  | (pool, .ok core) => return ((s.withPool pool).withHandle key (.buffer ⟨core⟩), .done)

/-- Makes buffers under successive numbers until one is refused. -/
def makeBuffers (s : Session) (key capacity : Nat) : (count : Nat) →
    Checked (Session × List (Option Locator) × Option Refusal)
  | 0 => .ok (s, [], none)
  | n + 1 => do
    match ← s.pool.allocateDefault capacity with
    | (pool, .error refusal) => return (s.withPool pool, [], some refusal)
    | (pool, .ok core) =>
      let buffer : Buffer := ⟨core⟩
      let locator ← buffer.locator? pool
      let s := (s.withPool pool).withHandle key (.buffer buffer)
      let (s, locators, stopped) ← makeBuffers s (key + 1) capacity n
      return (s, locator :: locators, stopped)

/-- Makes several buffers, if all their numbers are free. -/
def fill (s : Session) (key count capacity : Nat) : Checked (Session × Answer) := do
  if s.handles.keys.any fun k => key ≤ k && k < key + count then return (s, .handleInUse)
  if !s.attached then return (s, .noArena)
  let (s, locators, stopped) ← s.makeBuffers key capacity count
  return (s, .leases locators stopped)

/-- Makes a view from a buffer or a view. -/
def makeView (s : Session) (key source : Nat)
    (ofBuffer : Buffer → Checked (Pool × Answered View))
    (ofView : View → Option (Checked (Pool × Answered View))) : Checked (Session × Answer) := do
  if s.handles.contains key then return (s, .handleInUse)
  let made ← match s.handles.get? source with
    | none => return (s, .noHandle)
    | some (.buffer b) => ofBuffer b
    | some (.view v) =>
      match ofView v with
      | some made => made
      | none => return (s, .unsupported)
    | some _ => return (s, .unsupported)
  match made with
  | (pool, .error refusal) => return (s.withPool pool, .refused refusal)
  | (pool, .ok view) => return ((s.withPool pool).withHandle key (.view view), .done)

/-- An answer that is never a refusal. -/
def granted (made : Checked (Pool × View)) : Checked (Pool × Answered View) := do
  let (pool, view) ← made
  return (pool, .ok view)

/-- Keeps references to the present subpages. -/
def hold (s : Session) (key : Nat) : Session × Answer :=
  if s.handles.contains key then (s, .handleInUse)
  else if !s.attached then (s, .noArena)
  else (s.withHandle key (.subpages s.pool.arena.subpages), .done)

/-- Makes a core without a lease. -/
def makeCore (s : Session) (key : Nat) : Session × Answer :=
  if s.handles.contains key then (s, .handleInUse)
  else
    let (store, id) := s.pool.store.add .blank
    ((s.withPool { s.pool with store := store }).withHandle key (.core id), .done)

/-! ## Commands on handles -/

/-- Runs a command on a buffer. -/
def onBuffer (s : Session) (key : Nat) (run : Buffer → Checked (Pool × Answered Unit)) :
    Checked (Session × Answer) := do
  match s.handles.get? key with
  | none => return (s, .noHandle)
  | some (.buffer b) =>
    let (pool, answer) ← run b
    return (s.withPool pool, .ofUnit answer)
  | some _ => return (s, .unsupported)

/-- Runs a command on a core. -/
def onCore (s : Session) (key : Nat) (run : CoreId → Checked (Pool × Answer)) :
    Checked (Session × Answer) := do
  match s.handles.get? key with
  | none => return (s, .noHandle)
  | some (.core id) =>
    let (pool, answer) ← run id
    return (s.withPool pool, answer)
  | some _ => return (s, .unsupported)

/-- Runs a command on a core that changes nothing but the core. -/
def changeCore (s : Session) (key : Nat) (f : Core → Core) : Checked (Session × Answer) :=
  s.onCore key fun id => .ok (s.pool.modifyCore id f, .done)

/-- Runs a command on a buffer or a view that may change the handle. -/
def onEither (s : Session) (key : Nat)
    (onBuffer : Buffer → Checked (Pool × Answer))
    (onView : View → Checked (Pool × View × Answer)) : Checked (Session × Answer) := do
  match s.handles.get? key with
  | none => return (s, .noHandle)
  | some (.buffer b) =>
    let (pool, answer) ← onBuffer b
    return (s.withPool pool, answer)
  | some (.view v) =>
    let (pool, view, answer) ← onView v
    return ((s.withPool pool).withHandle key (.view view), answer)
  | some _ => return (s, .unsupported)

/-- Sets the cursors of a buffer or a view. -/
def setIndex (s : Session) (key reader writer : Nat) : Checked (Session × Answer) :=
  s.onEither key
    (fun b =>
      let (pool, answer) := b.setIndex s.pool reader writer
      .ok (pool, .ofUnit answer))
    (fun v =>
      match v.setIndex s.pool reader writer with
      | .ok view => .ok (s.pool, view, .done)
      | .error refusal => .ok (s.pool, v, .refused refusal))

/-- Appends bytes through a buffer or a view. -/
def write (s : Session) (key : Nat) (bytes : ByteArray) : Checked (Session × Answer) :=
  s.onEither key
    (fun b => do
      let (pool, answer) ← b.write s.pool bytes
      return (pool, .ofUnit answer))
    (fun v => do
      match ← v.write s.pool bytes with
      | (pool, .ok view) => return (pool, view, .done)
      | (pool, .error refusal) => return (pool, v, .refused refusal))

/-- Replaces bytes through a buffer or a view. -/
def setBytes (s : Session) (key index : Nat) (bytes : ByteArray) : Checked (Session × Answer) :=
  s.onEither key
    (fun b => do
      let (pool, answer) ← b.setBytes s.pool index bytes
      return (pool, .ofUnit answer))
    (fun v => do
      let (pool, answer) ← v.setBytes s.pool index bytes
      return (pool, v, .ofUnit answer))

/-- Takes bytes from a buffer or a view. -/
def read (s : Session) (key length : Nat) : Checked (Session × Answer) :=
  s.onEither key
    (fun b => do
      let (pool, answer) ← b.read s.pool length
      return (pool, .ofBytes answer))
    (fun v => do
      match ← v.read s.pool length with
      | .ok (view, bytes) => return (s.pool, view, .bytes bytes)
      | .error refusal => return (s.pool, v, .refused refusal))

/-- The bytes of a range of a buffer or a view. -/
def getBytes (s : Session) (key index length : Nat) : Checked (Session × Answer) :=
  s.onEither key
    (fun b => do return (s.pool, .ofBytes (← b.getBytes s.pool index length)))
    (fun v => do return (s.pool, v, .ofBytes (← v.getBytes s.pool index length)))

/-- The readable bytes of a buffer or a view. -/
def copyReadable (s : Session) (key : Nat) : Checked (Session × Answer) :=
  s.onEither key
    (fun b => do return (s.pool, .ofBytes (← b.copyReadable s.pool)))
    (fun v => do return (s.pool, v, .ofBytes (← v.copyReadable s.pool)))

/-- What a buffer tells of itself. -/
def bufferInfo (p : Pool) (b : Buffer) : Checked BufferInfo := do
  let core := p.core b.core
  let readable ← core.readable
  let writable ← core.writable
  let locator ← b.locator? p
  return ⟨b.written p, core.maxCapacity, readable, writable, locator.isSome, locator⟩

/-- What a buffer or a view tells of itself. -/
def info (s : Session) (key : Nat) : Checked (Session × Answer) :=
  s.onEither key
    (fun b => do return (s.pool, .bufferInfo (← bufferInfo s.pool b)))
    (fun v => do return (s.pool, v, .viewInfo (v.written s.pool) (← v.readable)))

/-- The figures of subpages. -/
def subpageList (p : Pool) : (ids : List SubpageId) → Checked (List (Subpage.Metric × String))
  | [] => .ok []
  | id :: rest => do
    let text ← p.arena.subpageText id
    return (p.arena.metric id, text) :: (← subpageList p rest)

/-- Reads kept references to subpages. -/
def held (s : Session) (key : Nat) : Checked (Session × Answer) := do
  match s.handles.get? key with
  | none => return (s, .noHandle)
  | some (.subpages ids) => return (s, .subpages (← subpageList s.pool ids))
  | some _ => return (s, .unsupported)

/-- Gives a handle up. -/
def drop (s : Session) (key : Nat) : Checked (Session × Answer) := do
  match s.handles.get? key with
  | none => return (s, .noHandle)
  | some handle => return (← s.dropHandle key handle, .done)

/-- Gives up the handles from `key` on at equal distances, as far as they exist. -/
def dropRange (s : Session) (key stop step : Nat) : Checked (Session × Answer) := do
  let inRange (k : Nat) : Bool := key ≤ k && k < stop && (k - key) % max step 1 == 0
  let (s, count) ← s.dropAll (s.handles.keys.filter inRange)
  return (s, .number count)

/-- Lets go of the pool. -/
def detach (s : Session) : Session × Answer :=
  if s.attached then ({ s with attached := false }, .done) else (s, .noArena)

/-- Runs a command that needs the pool itself. -/
def whileAttached (s : Session) (run : Checked (Session × Answer)) : Checked (Session × Answer) :=
  if s.attached then run else .ok (s, .noArena)

/-! ## Commands on cores -/

/-- Binds a lease on a new chunk to a core. -/
def coreBind (s : Session) (key chunk size : Nat) (unpooled : Bool) (location : Location)
    (offset length maxLength : Nat) : Checked (Session × Answer) :=
  s.whileAttached <| s.onCore key fun id => do
    match s.pool.arena.heap.obtain? size with
    | (heap, none) => return (s.pool.modifyHeap fun _ => heap, .refused (.outOfMemory size))
    | (heap, some block) =>
      let lease : Lease := ⟨⟨chunk, block, size, unpooled⟩, location, offset, length, maxLength⟩
      let core ← (s.pool.core id).bind lease
      return ((s.pool.modifyHeap fun _ => heap).modifyCore id fun _ => core, .done)

/-- Runs a command and answers it. -/
def run (s : Session) : Command → Checked (Session × Answer)
  | .buffer key capacity => s.makeBuffer key capacity s.pool.config.defaultMaxCapacity
  | .allocate key capacity maxCapacity => s.makeBuffer key capacity maxCapacity
  | .fill key count capacity => s.fill key count capacity
  | .drop key => s.drop key
  | .dropRange key stop step => s.dropRange key stop step
  | .detach => .ok s.detach
  | .duplicate key source =>
    s.makeView key source (fun b => granted (b.duplicate s.pool))
      (fun v => some (granted (v.duplicate s.pool)))
  | .slice key source index length =>
    s.makeView key source (fun b => b.slice s.pool index length)
      (fun v => some (v.slice s.pool index length))
  | .sliceReadable key source =>
    s.makeView key source (fun b => granted (b.sliceReadable s.pool)) (fun _ => none)
  | .setCapacity key capacity => s.onBuffer key fun b => b.setCapacity s.pool capacity
  | .ensureWritable key additional => s.onBuffer key fun b => b.ensureWritable s.pool additional
  | .setIndex key reader writer => s.setIndex key reader writer
  | .write key bytes => s.write key bytes
  | .setBytes key index bytes => s.setBytes key index bytes
  | .read key length => s.read key length
  | .getBytes key index length => s.getBytes key index length
  | .copyReadable key => s.copyReadable key
  | .info key => s.info key
  | .stats => s.whileAttached do return (s, .text (← s.pool.stats).written)
  | .freeSubpages capacity =>
    s.whileAttached do return (s, .number (← s.pool.arena.freeSubpages capacity))
  | .counters => .ok (s, .counters s.pool.arena.counters)
  | .subpages =>
    s.whileAttached do return (s, .subpages (← subpageList s.pool s.pool.arena.subpages))
  | .hold key => .ok (s.hold key)
  | .held key => s.held key
  | .coreNew key => .ok (s.makeCore key)
  | .coreReuse key maxCapacity => s.changeCore key fun c => c.ready maxCapacity
  | .coreRetain key => s.onCore key fun id => do return (← s.pool.retain id, .done)
  | .coreRelease key => s.onCore key fun id => do return (← s.pool.release id, .done)
  | .coreReclaim key => s.onCore key fun id => do return (← s.pool.reclaim id, .done)
  | .coreSetIndex key reader writer =>
    s.changeCore key fun c => { c with reader := reader, writer := writer }
  | .coreClamp key capacity => s.changeCore key fun c => c.clamp capacity
  | .coreBind key chunk size unpooled location offset length maxLength =>
    s.coreBind key chunk size unpooled location offset length maxLength
  | .coreSetCapacity key capacity => s.onCore key fun id => do
    let (pool, answer) ← s.pool.setCapacity id capacity
    return (pool, .ofUnit answer)
  | .coreGetBytes key index length => s.onCore key fun id => do
    return (s.pool, .ofBytes (← s.pool.getBytes id index length))
  | .coreSetBytes key index bytes => s.onCore key fun id => do
    let (pool, answer) ← s.pool.setBytes id index bytes
    return (pool, .ofUnit answer)
  | .coreFastCapacity key => s.onCore key fun id => do
    return (s.pool, .number (← (s.pool.core id).bound).maxLength)
  | .coreMove key capacity => s.whileAttached <| s.onCore key fun id => do
    let (pool, answer) ← s.pool.move id capacity
    return (pool, .ofUnit answer)

/-- Runs a command; afterwards the chunks are gone if nobody refers to the arena any more. -/
def step (s : Session) (command : Command) : Checked (Session × Answer) := do
  let (s, answer) ← s.run command
  return (s.settle, answer)

end BufferPool.Session
