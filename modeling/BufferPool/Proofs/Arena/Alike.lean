import BufferPool.Arena.Lease
import BufferPool.Arena.Return
import BufferPool.Arena.Stats
import BufferPool.Proofs.Memory
import BufferPool.Proofs.Table.Alike
import Mathlib.Logic.Function.Basic

/-!
# Arenas that do the same

An arena looks up chunks and memories by their numbers and makes nothing else of them; how many cores may wait,
and what was counted, it writes down and never reads. Two arenas that differ in these points only
(`Arena.Alike`) grant the same leases, up to the numbers, take them back alike, and show the same of themselves.
What the numbers of one are in the other, and how the counters compare, a `Likeness` tells.
-/

namespace BufferPool

open Checked

/-- The numbers that the chunks and memories of an arena have in another one, and what ties the counters of both
arenas together, whatever is counted. Whether a core waited is of no matter. -/
structure Likeness where
  chunk : Nat → Nat
  memory : Nat → Nat
  counters : Counters → Counters → Prop
  chunk_injective : Function.Injective chunk
  memory_injective : Function.Injective memory
  count : ∀ {c c' : Counters} (event : Event), counters c c' → counters (c.count event) (c'.count event)
  waited : ∀ {c c' : Counters} (waited waited' : Bool), counters c c' →
    counters (c.count (if waited then .recyclerHit else .recyclerMiss))
      (c'.count (if waited' then .recyclerHit else .recyclerMiss))

variable {R : Likeness}

/-! ## Numbers -/

/-- The chunk with the numbers that it has in the other arena. -/
def Chunk.renumbered (R : Likeness) (c : Chunk) : Chunk :=
  { c with id := R.chunk c.id, memory := R.memory c.memory }

/-- The lease on the chunk of the other arena. -/
def Lease.renumbered (R : Likeness) (l : Lease) : Lease := { l with chunk := l.chunk.renumbered R }

/-- The shared chunk with the numbers that it has in the other arena. -/
def PooledChunk.renumbered (R : Likeness) (c : PooledChunk) : PooledChunk :=
  { c with chunk := c.chunk.renumbered R }

/-! ## Memories -/

/-- Two heaps with the same memories under different numbers, also in what is to come. -/
structure Heap.Alike (R : Likeness) (h h' : Heap) : Prop where
  get : ∀ b, h'.get (R.memory b) = h.get b
  next : ∀ n, R.memory (h.blocks.size + n) = h'.blocks.size + n
  refuses : ∀ n size, h'.refuses (h'.attempts + n) size = h.refuses (h.attempts + n) size

namespace Heap.Alike

variable {h h' : Heap}

/-- A memory is there in both or in neither. -/
theorem lt_size_iff (A : h.Alike R h') (b : Nat) : R.memory b < h'.blocks.size ↔ b < h.blocks.size := by
  constructor
  · intro inside
    by_contra outside
    have next := A.next (b - h.blocks.size)
    rw [Nat.add_sub_cancel' (Nat.le_of_not_lt outside)] at next
    omega
  · intro inside
    by_contra outside
    have next := A.next (R.memory b - h'.blocks.size)
    rw [Nat.add_sub_cancel' (Nat.le_of_not_lt outside)] at next
    have same := R.memory_injective next
    omega

theorem read (A : h.Alike R h') (block : BlockId) (position length : Nat) :
    h'.read (R.memory block) position length = h.read block position length := by
  unfold Heap.read Heap.check Heap.slice
  rw [A.get]

theorem overwrite (A : h.Alike R h') (block : BlockId) (position : Nat) (bytes : ByteArray) :
    (h.overwrite block position bytes).Alike R (h'.overwrite (R.memory block) position bytes) where
  get b := by
    by_cases inside : block < h.blocks.size
    · rw [get_overwrite inside, get_overwrite ((A.lt_size_iff block).2 inside), A.get, A.get]
      exact if_congr R.memory_injective.eq_iff rfl rfl
    · have kept : ∀ {g : Heap} {i : BlockId}, ¬ i < g.blocks.size → ∀ j,
          (g.overwrite i position bytes).get j = g.get j := fun {g i} outside j => by
        simp only [Heap.get, Heap.overwrite, Array.getElem?_modify]
        split
        · rename_i same
          rw [← same, Array.getElem?_eq_none (Nat.le_of_not_lt outside)]
          rfl
        · rfl
      rw [kept inside, kept (fun inside' => inside ((A.lt_size_iff block).1 inside')), A.get]
  next n := by
    rw [sameShape_overwrite.size, sameShape_overwrite.size, A.next]
  refuses := A.refuses

theorem transfer (A : h.Alike R h') (source : BlockId) (position : Nat) (target : BlockId) (goal length : Nat) :
    (h.transfer source position target goal length).Alike R
      (h'.transfer (R.memory source) position (R.memory target) goal length) := by
  unfold Heap.transfer Heap.slice
  rw [A.get]
  exact A.overwrite target goal _

theorem attempted (A : h.Alike R h') : h.attempted.Alike R h'.attempted where
  get := A.get
  next := A.next
  refuses n size := by
    have later := A.refuses (n + 1) size
    rw [Nat.add_comm n 1, ← Nat.add_assoc, ← Nat.add_assoc] at later
    exact later

/-- Both get a memory of the same size. -/
theorem add (A : h.Alike R h') (m : Memory) :
    (h.add m).1.Alike R (h'.add m).1 ∧ (h'.add m).2 = R.memory (h.add m).2 := by
  have new : R.memory h.blocks.size = h'.blocks.size := A.next 0
  have get : ∀ (g : Heap) (b : BlockId), (g.add m).1.get b = if b = g.blocks.size then m else g.get b :=
    fun g => @get_push g (g.add m).1 m rfl
  refine ⟨⟨fun b => ?_, fun n => ?_, A.refuses⟩, new.symm⟩
  · rw [get, get, A.get, ← new]
    exact if_congr R.memory_injective.eq_iff rfl rfl
  · have later := A.next (n + 1)
    simp only [Heap.add, Array.size_push]
    rw [Nat.add_assoc, Nat.add_comm 1 n, later]
    omega

/-- Both systems grant a memory or both refuse it. -/
theorem obtain? (A : h.Alike R h') (size : Nat) : (h.obtain? size).1.Alike R (h'.obtain? size).1 ∧
    (h'.obtain? size).2 = (h.obtain? size).2.map R.memory := by
  have refuses := A.refuses 0 size
  rw [Nat.add_zero, Nat.add_zero] at refuses
  unfold Heap.obtain?
  rw [refuses]
  split
  · exact ⟨A.attempted, rfl⟩
  · split
    · exact ⟨A.attempted, rfl⟩
    · obtain ⟨added, new⟩ := A.attempted.add _
      exact ⟨added, congrArg some new⟩

end Heap.Alike

/-! ## Arenas -/

/-- Two arenas that do the same, with different numbers. -/
structure Arena.Alike (R : Likeness) (a a' : Arena) : Prop where
  config : ∃ room, a'.config = { a.config with recyclerCapacity := room }
  table : a.table.Alike R.chunk a'.table
  tinyHeads : a'.tinyHeads = a.tinyHeads
  smallHeads : a'.smallHeads = a.smallHeads
  chunks : a'.chunks = a.chunks.map (PooledChunk.renumbered R)
  activeLeases : a'.activeLeases = a.activeLeases
  next : ∀ n, R.chunk (a.nextChunkId + n) = a'.nextChunkId + n
  heap : a.heap.Alike R a'.heap
  counters : R.counters a.counters a'.counters

namespace Arena

variable {a a' : Arena} {n : Nat} {t t' : SubpageTable}

/-- Arenas that stay alike, with the same answer but for the numbers. -/
def Answers {α : Type} (R : Likeness) (f : α → α) (r r' : Arena × α) : Prop := r.1.Alike R r'.1 ∧ r'.2 = f r.2

namespace Alike

/-! ### Parts -/

theorem withTable (A : a.Alike R a') (T : t.Alike R.chunk t') :
    Arena.Alike R { a with table := t } { a' with table := t' } :=
  ⟨A.config, T, A.tinyHeads, A.smallHeads, A.chunks, A.activeLeases, A.next, A.heap, A.counters⟩

theorem withHeap (A : a.Alike R a') {h h' : Heap} (H : h.Alike R h') :
    Arena.Alike R { a with heap := h } { a' with heap := h' } :=
  ⟨A.config, A.table, A.tinyHeads, A.smallHeads, A.chunks, A.activeLeases, A.next, H, A.counters⟩

theorem withActive (A : a.Alike R a') (active : Nat) :
    Arena.Alike R { a with activeLeases := active } { a' with activeLeases := active } :=
  ⟨A.config, A.table, A.tinyHeads, A.smallHeads, A.chunks, rfl, A.next, A.heap, A.counters⟩

theorem withChunks (A : a.Alike R a') (chunks : Array PooledChunk) : Arena.Alike R { a with chunks := chunks }
    { a' with chunks := chunks.map (PooledChunk.renumbered R) } :=
  ⟨A.config, A.table, A.tinyHeads, A.smallHeads, rfl, A.activeLeases, A.next, A.heap, A.counters⟩

/-- The number of the next chunk is used up in both. -/
theorem withNext (A : a.Alike R a') :
    Arena.Alike R { a with nextChunkId := a.nextChunkId + 1 } { a' with nextChunkId := a'.nextChunkId + 1 } where
  config := A.config
  table := A.table
  tinyHeads := A.tinyHeads
  smallHeads := A.smallHeads
  chunks := A.chunks
  activeLeases := A.activeLeases
  next n := by
    have later := A.next (n + 1)
    rw [Nat.add_comm n 1, ← Nat.add_assoc, ← Nat.add_assoc] at later
    exact later
  heap := A.heap
  counters := A.counters

theorem count (A : a.Alike R a') (event : Event) : (a.count event).Alike R (a'.count event) :=
  ⟨A.config, A.table, A.tinyHeads, A.smallHeads, A.chunks, A.activeLeases, A.next, A.heap,
    R.count event A.counters⟩

theorem waited (A : a.Alike R a') (waited waited' : Bool) :
    (a.count (if waited then .recyclerHit else .recyclerMiss)).Alike R
      (a'.count (if waited' then .recyclerHit else .recyclerMiss)) :=
  ⟨A.config, A.table, A.tinyHeads, A.smallHeads, A.chunks, A.activeLeases, A.next, A.heap,
    R.waited waited waited' A.counters⟩

theorem withPages (A : a.Alike R a') (index : Nat) (pages : PageMap) :
    (a.withPages index pages).Alike R (a'.withPages index pages) := by
  have same : (a'.withPages index pages).chunks =
      (a.withPages index pages).chunks.map (PooledChunk.renumbered R) := by
    refine Array.ext_getElem? fun i => ?_
    simp only [Arena.withPages, A.chunks, Array.getElem?_map, Array.getElem?_modify]
    split
    · cases a.chunks[i]? <;> rfl
    · rfl
  exact ⟨A.config, A.table, A.tinyHeads, A.smallHeads, same, A.activeLeases, A.next, A.heap, A.counters⟩

/-! ### Questions -/

theorem pageSize (A : a.Alike R a') : a'.config.pageSize = a.config.pageSize := by
  obtain ⟨room, e⟩ := A.config
  rw [e]

theorem chunkSize (A : a.Alike R a') : a'.chunkSize = a.chunkSize := by
  obtain ⟨room, e⟩ := A.config
  rw [Arena.chunkSize, e]
  rfl

theorem defaultMaxCapacity (A : a.Alike R a') : a'.config.defaultMaxCapacity = a.config.defaultMaxCapacity := by
  obtain ⟨room, e⟩ := A.config
  rw [e]

theorem size (A : a.Alike R a') : a'.chunks.size = a.chunks.size := by rw [A.chunks, Array.size_map]

theorem isFull (A : a.Alike R a') : a'.isFull = a.isFull := by
  obtain ⟨room, e⟩ := A.config
  rw [Arena.isFull, e, A.size]
  rfl

theorem rounded (A : a.Alike R a') (request : Nat) : a'.rounded request = a.rounded request := by
  rw [Arena.rounded, A.chunkSize, Arena.rounded]

theorem classOf (A : a.Alike R a') (size : Nat) : a'.classOf size = a.classOf size := by
  rw [Arena.classOf, A.chunkSize, A.pageSize, Arena.classOf]

theorem listHead? (A : a.Alike R a') (size : Nat) : a'.listHead? size = a.listHead? size := by
  rw [Arena.listHead?, A.classOf, A.tinyHeads, A.smallHeads, Arena.listHead?]

theorem listHead (A : a.Alike R a') (size : Nat) : a'.listHead size = a.listHead size := by
  rw [Arena.listHead, A.listHead?, Arena.listHead]

/-- A chunk has the same position in both. -/
theorem chunkIndex (A : a.Alike R a') (id : Nat) :
    (a.chunkIndex id).Agrees (a'.chunkIndex (R.chunk id)) fun i i' => i' = i := by
  have found : a'.chunks.findIdx? (fun c => c.chunk.id == R.chunk id) =
      a.chunks.findIdx? fun c => c.chunk.id == id := by
    rw [A.chunks, Array.findIdx?_map]
    refine congrArg a.chunks.findIdx? (funext fun c => ?_)
    exact Bool.eq_iff_iff.2 (by simp [PooledChunk.renumbered, Chunk.renumbered, R.chunk_injective.eq_iff])
  unfold Arena.chunkIndex
  rw [found]
  split
  · exact agrees_ok.2 rfl
  · exact agrees_error

theorem chunkAt (A : a.Alike R a') (index : Nat) :
    (a.chunkAt index).Agrees (a'.chunkAt index) fun c c' => c' = c.renumbered R := by
  unfold Arena.chunkAt
  rw [A.chunks, Array.getElem?_map]
  cases a.chunks[index]? with
  | none => exact agrees_error
  | some c => exact agrees_ok.2 rfl

theorem subpages (A : a.Alike R a') : a'.subpages = a.subpages := by
  rw [Arena.subpages, A.chunks, Array.toList_map, List.flatMap_map]
  rfl

theorem usedPages (A : a.Alike R a') : a'.usedPages = a.usedPages := by
  have used : ∀ chunks : List PooledChunk,
      usedPagesIn (chunks.map (PooledChunk.renumbered R)) = usedPagesIn chunks := fun chunks => by
    induction chunks with
    | nil => rfl
    | cons c rest ih =>
      rw [List.map_cons, usedPagesIn, usedPagesIn, ih]
      rfl
  rw [Arena.usedPages, A.chunks, Array.toList_map, used, Arena.usedPages]

theorem activeSubpages (A : a.Alike R a') : a.activeSubpages.Agrees a'.activeSubpages fun n n' => n' = n := by
  have active : ∀ ids : List SubpageId, (countActive a.table ids).Agrees (countActive a'.table ids)
      fun n n' => n' = n := fun ids => by
    induction ids with
    | nil => exact agrees_ok.2 rfl
    | cons id rest ih =>
      refine (A.table.get id).bind fun s s' alike => ih.bind fun n n' same => ?_
      obtain ⟨hint, rfl⟩ := alike.same
      cases same
      exact agrees_pure.2 rfl
  rw [Arena.activeSubpages, Arena.activeSubpages, A.subpages]
  exact active _

theorem freeSubpages (A : a.Alike R a') (capacity : Nat) : a'.freeSubpages capacity = a.freeSubpages capacity := by
  unfold Arena.freeSubpages
  simp only [A.rounded, A.listHead?, A.table.length]

theorem metric (A : a.Alike R a') (id : SubpageId) : a'.metric id = a.metric id := by
  have named := A.table.get? id
  unfold Arena.metric
  rw [A.pageSize]
  generalize a.table.get? id = s, a'.table.get? id = s' at named
  cases named with
  | none => rfl
  | some alike =>
    obtain ⟨hint, rfl⟩ := alike.same
    rfl

theorem subpageText (A : a.Alike R a') (id : SubpageId) : a'.subpageText id = a.subpageText id := by
  have named := A.table.get? id
  unfold Arena.subpageText
  generalize a.table.get? id = s, a'.table.get? id = s' at named
  cases named with
  | none => rfl
  | some alike =>
    obtain ⟨hint, rfl⟩ := alike.same
    rfl

/-! ### Leases granted -/

theorem growTakingRun (A : a.Alike R a') :
    (a.growTakingRun n).Agrees (a'.growTakingRun n) (Answers R id) := by
  unfold Arena.growTakingRun
  rw [A.isFull, A.chunkSize, A.pageSize, A.size]
  split
  · exact agrees_ok.2 ⟨A, rfl⟩
  · obtain ⟨heap, found⟩ := A.heap.obtain? a.chunkSize
    generalize a.heap.obtain? a.chunkSize = r at heap found
    generalize a'.heap.obtain? a.chunkSize = r' at heap found
    obtain ⟨h, block?⟩ := r
    obtain ⟨h', block?'⟩ := r'
    cases found
    cases block? with
    | none => exact agrees_ok.2 ⟨A.withHeap heap, rfl⟩
    | some block =>
      dsimp only [Option.map_some]
      split
      · exact agrees_error
      · rename_i pages run taken
        have number : R.chunk a.nextChunkId = a'.nextChunkId := A.next 0
        have grown := ((A.withHeap heap).withNext.withChunks
          (a.chunks.push ⟨⟨a.nextChunkId, block, a.chunkSize, false⟩, pages⟩)).count .chunkCreated
        rw [Array.map_push, ← A.chunks] at grown
        unfold PooledChunk.renumbered Chunk.renumbered at grown
        rw [number] at grown
        exact agrees_ok.2 ⟨grown, rfl⟩

theorem firstRun? (A : a.Alike R a') :
    Arena.firstRun? n a'.chunks.toList 0 = Arena.firstRun? n a.chunks.toList 0 := by
  have same : ∀ (chunks : List PooledChunk) (index : Nat),
      Arena.firstRun? n (chunks.map (PooledChunk.renumbered R)) index = Arena.firstRun? n chunks index := by
    intro chunks
    induction chunks with
    | nil => exact fun _ => rfl
    | cons c rest ih =>
      intro index
      rw [List.map_cons, Arena.firstRun?, Arena.firstRun?, ih]
      rfl
  rw [A.chunks, Array.toList_map, same]

theorem takeRun (A : a.Alike R a') : (a.takeRun n).Agrees (a'.takeRun n) (Answers R id) := by
  unfold Arena.takeRun
  rw [A.firstRun?]
  split
  · exact agrees_ok.2 ⟨A.withPages .., rfl⟩
  · exact A.growTakingRun

theorem slotLease (A : a.Alike R a') (id : SubpageId) (locator : Locator) (capacity : Nat) :
    (a.slotLease id locator capacity).Agrees (a'.slotLease id locator capacity)
      fun l l' => l' = l.renumbered R := by
  unfold Arena.slotLease
  refine (A.table.get id).bind fun s s' alike => ?_
  obtain ⟨hint, rfl⟩ := alike.same
  refine (A.chunkIndex s.chunk).bind fun i i' same => ?_
  cases same
  refine (A.chunkAt i).bind fun c c' same => ?_
  cases same
  exact .step fun slot => .step fun offset => agrees_pure.2 rfl

/-- A slot that was found in both, on tables that stay alike. -/
abbrev SlotAlike (R : Likeness) (r r' : SubpageTable × SubpageId × Locator) : Prop :=
  r.1.Alike R.chunk r'.1 ∧ r'.2 = r.2

theorem leaseListed? (A : a.Alike R a') (head : SubpageId) (size : Nat) :
    (a.leaseListed? head size).Agrees (a'.leaseListed? head size) (Option.Rel (SlotAlike R)) := by
  unfold Arena.leaseListed?
  rw [A.table.front?]
  refine .step fun front => ?_
  cases front with
  | none => exact agrees_pure.2 .none
  | some id =>
    refine (A.table.get id).bind fun s s' alike => ?_
    obtain ⟨hint, rfl⟩ := alike.same
    refine .step fun _ => (A.table.lease id).bind ?_
    rintro ⟨t, locator⟩ ⟨t', locator'⟩ ⟨table, same⟩
    cases same
    cases locator with
    | none => exact agrees_pure.2 .none
    | some locator => exact agrees_pure.2 (.some ⟨table, rfl⟩)

theorem subpageFor (A : a.Alike R a') (index : Nat) (page : UInt32) :
    (a.subpageFor index page).Agrees (a'.subpageFor index page) (Answers R id) := by
  unfold Arena.subpageFor
  refine (A.chunkAt index).bind fun c c' same => ?_
  cases same
  refine .step fun found => ?_
  cases found with
  | some id => exact agrees_pure.2 ⟨A, rfl⟩
  | none =>
    refine .step fun offset => ?_
    rw [A.pageSize]
    obtain ⟨table, same⟩ := A.table.insert (s := .ofPage c.chunk.id page offset a.config.pageSize)
      (Subpage.alike_renumbered _)
    rw [show (PooledChunk.renumbered R c).chunk.id = R.chunk c.chunk.id from rfl]
    unfold Subpage.ofPage at table same ⊢
    dsimp only at same ⊢
    rw [same]
    exact .step fun pages => agrees_pure.2 ⟨(A.withTable table).withPages .., rfl⟩

theorem leaseFresh (A : a.Alike R a') (head : SubpageId) (size capacity : Nat) :
    (a.leaseFresh head size capacity).Agrees (a'.leaseFresh head size capacity)
      (Answers R (Except.map (Lease.renumbered R))) := by
  unfold Arena.leaseFresh
  refine A.takeRun.bind ?_
  rintro ⟨a₁, answer⟩ ⟨a₁', answer'⟩ ⟨A₁, same⟩
  cases same
  cases answer with
  | error refusal => exact agrees_pure.2 ⟨A₁, rfl⟩
  | ok run =>
    refine (A₁.subpageFor run.1 run.2.page).bind ?_
    rintro ⟨a₂, id⟩ ⟨a₂', id'⟩ ⟨A₂, same⟩
    cases same
    refine (A₂.table.enlist head id size).bind fun t t' listed => (listed.lease id).bind ?_
    rintro ⟨u, locator⟩ ⟨u', locator'⟩ ⟨leased, same⟩
    cases same
    cases locator with
    | none => exact agrees_error
    | some locator =>
      have A₃ := A₂.withTable leased
      refine (A₃.slotLease id locator capacity).bind fun l l' same => ?_
      cases same
      exact agrees_pure.2 ⟨A₃, rfl⟩

theorem leaseSlot (A : a.Alike R a') (size capacity : Nat) :
    (a.leaseSlot size capacity).Agrees (a'.leaseSlot size capacity)
      (Answers R (Except.map (Lease.renumbered R))) := by
  unfold Arena.leaseSlot
  rw [A.listHead]
  refine .step fun head => (A.leaseListed? head size).bind fun found found' alike => ?_
  cases alike with
  | none => exact A.leaseFresh head size capacity
  | @some r r' alike =>
    obtain ⟨t, id, locator⟩ := r
    obtain ⟨t', id', locator'⟩ := r'
    obtain ⟨table, same⟩ := alike
    cases same
    have leased := A.withTable table
    refine (leased.slotLease id locator capacity).bind fun l l' same => ?_
    cases same
    exact agrees_pure.2 ⟨leased, rfl⟩

theorem leaseRun (A : a.Alike R a') (size capacity : Nat) :
    (a.leaseRun size capacity).Agrees (a'.leaseRun size capacity)
      (Answers R (Except.map (Lease.renumbered R))) := by
  unfold Arena.leaseRun
  rw [A.pageSize]
  refine A.takeRun.bind ?_
  rintro ⟨a₁, answer⟩ ⟨a₁', answer'⟩ ⟨A₁, same⟩
  cases same
  cases answer with
  | error refusal => exact agrees_pure.2 ⟨A₁, rfl⟩
  | ok run =>
    refine (A₁.chunkAt run.1).bind fun c c' same => ?_
    cases same
    exact .step fun offset => .step fun size => agrees_pure.2 ⟨A₁, rfl⟩

theorem leasePrivate (A : a.Alike R a') (capacity : Nat) :
    Answers R (Except.map (Lease.renumbered R)) (a.leasePrivate capacity) (a'.leasePrivate capacity) := by
  obtain ⟨heap, found⟩ := A.heap.obtain? capacity
  have number : R.chunk a.nextChunkId = a'.nextChunkId := A.next 0
  unfold Arena.leasePrivate
  generalize a.heap.obtain? capacity = r, a'.heap.obtain? capacity = r' at heap found
  obtain ⟨h, block?⟩ := r
  obtain ⟨h', block?'⟩ := r'
  cases found
  cases block? with
  | none => exact ⟨A.withHeap heap, rfl⟩
  | some block =>
    refine ⟨(A.withHeap heap).withNext, ?_⟩
    dsimp only [Option.map_some]
    rw [← number]
    rfl

theorem grant (A : a.Alike R a') (kind : Size.Class) (size capacity : Nat) :
    (a.grant kind size capacity).Agrees (a'.grant kind size capacity)
      (Answers R (Except.map (Lease.renumbered R))) := by
  unfold Arena.grant
  split
  · exact agrees_ok.2 (A.leasePrivate capacity)
  · exact A.leaseRun size capacity
  · exact A.leaseSlot size capacity

theorem countPooled (A : a.Alike R a') (kind : Size.Class) :
    (a.countPooled kind).Alike R (a'.countPooled kind) := by
  unfold Arena.countPooled
  rw [A.activeLeases]
  split
  · exact A
  · exact A.withActive _

/-- Arenas that are alike grant the same lease, or refuse it alike. -/
theorem lease (A : a.Alike R a') (capacity : Nat) :
    (a.lease capacity).Agrees (a'.lease capacity) (Answers R (Except.map (Lease.renumbered R))) := by
  unfold Arena.lease
  dsimp only
  rw [A.rounded, A.classOf]
  refine .step fun kind => (A.grant kind (a.rounded capacity) capacity).bind ?_
  rintro ⟨a₁, answer⟩ ⟨a₁', answer'⟩ ⟨A₁, same⟩
  cases same
  cases answer with
  | error refusal => exact agrees_pure.2 ⟨A₁.count _, rfl⟩
  | ok l => exact agrees_pure.2 ⟨(A₁.countPooled kind).count _, rfl⟩

/-! ### Leases returned -/

theorem removeAll (T : t.Alike R.chunk t') (ids : List SubpageId) :
    (Arena.removeAll t ids).Agrees (Arena.removeAll t' ids) (SubpageTable.Alike R.chunk) := by
  induction ids generalizing t t' with
  | nil => exact agrees_ok.2 T
  | cons id rest ih =>
    unfold Arena.removeAll
    exact (T.remove id).bind fun r r' removed => ih removed

theorem destroyChunk (A : a.Alike R a') (index : Nat) :
    (a.destroyChunk index).Agrees (a'.destroyChunk index) (Arena.Alike R) := by
  unfold Arena.destroyChunk
  refine (A.chunkAt index).bind fun c c' same => ?_
  cases same
  refine (removeAll A.table c.pages.subpages).bind fun t t' removed => ?_
  have left := ((A.withTable removed).withChunks
    (a.chunks.swapIfInBounds index (a.chunks.size - 1)).pop).count .chunkDestroyed
  have same : (a'.chunks.swapIfInBounds index (a'.chunks.size - 1)).pop =
      ((a.chunks.swapIfInBounds index (a.chunks.size - 1)).pop).map (PooledChunk.renumbered R) := by
    rw [A.chunks, Array.size_map, Array.map_pop]
    refine congrArg Array.pop (Array.ext (by simp) fun i _ _ => ?_)
    simp only [Array.getElem_map, Array.getElem_swapIfInBounds, Array.size_map]
    split
    · rfl
    · split <;> rfl
  rw [← same] at left
  exact agrees_pure.2 left

theorem returnRun (A : a.Alike R a') (index page : Nat) :
    (a.returnRun index page).Agrees (a'.returnRun index page) (Arena.Alike R) := by
  unfold Arena.returnRun
  refine (A.chunkAt index).bind fun c c' same => ?_
  cases same
  refine .step fun pages => ?_
  have freed := A.withPages index pages
  dsimp only
  rw [freed.size]
  split
  · exact freed.destroyChunk index
  · exact agrees_pure.2 freed

theorem returnSlot (A : a.Alike R a') (index page slot : Nat) :
    (a.returnSlot index page slot).Agrees (a'.returnSlot index page slot) (Answers R id) := by
  unfold Arena.returnSlot
  refine (A.chunkAt index).bind fun c c' same => ?_
  cases same
  refine .step fun found => ?_
  cases found with
  | none => exact agrees_error
  | some id =>
    refine (A.table.get id).bind fun s s' alike => ?_
    obtain ⟨hint, rfl⟩ := alike.same
    dsimp only
    rw [A.listHead]
    refine .step fun head => (A.table.giveBack head id slot).bind ?_
    rintro ⟨t, stays⟩ ⟨t', stays'⟩ ⟨table, same⟩
    cases same
    exact agrees_pure.2 ⟨A.withTable table, rfl⟩

theorem returnPooled (A : a.Alike R a') (chunk : Nat) (locator : Locator) :
    (a.returnPooled chunk locator).Agrees (a'.returnPooled (R.chunk chunk) locator) (Arena.Alike R) := by
  unfold Arena.returnPooled
  refine (A.chunkIndex chunk).bind fun index index' same => ?_
  cases same
  dsimp only
  split
  · exact A.returnRun index _
  · refine (A.returnSlot index _ _).bind ?_
    rintro ⟨a₁, stays⟩ ⟨a₁', stays'⟩ ⟨A₁, same⟩
    cases same
    dsimp only
    split
    · exact agrees_pure.2 A₁
    · exact (A₁.count .subpageRetired).returnRun index _

/-- Arenas that are alike take a lease back alike. -/
theorem takeBack (A : a.Alike R a') (l : Lease) :
    (a.takeBack l).Agrees (a'.takeBack (l.renumbered R)) (Arena.Alike R) := by
  unfold Arena.takeBack
  rw [show (l.renumbered R).location = l.location from rfl]
  split
  · exact agrees_pure.2 (A.count _)
  · refine (A.returnPooled l.chunk.id _).bind fun a₁ a₁' A₁ => ?_
    rw [A₁.activeLeases]
    exact .step fun active => agrees_pure.2 ((A₁.withActive active).count _)

end Alike

end Arena

end BufferPool
