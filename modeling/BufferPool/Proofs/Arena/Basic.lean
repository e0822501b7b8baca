import BufferPool.Arena.Basic
import BufferPool.Proofs.Memory
import BufferPool.Proofs.PageMap
import BufferPool.Proofs.Size
import BufferPool.Proofs.Table.Slots

/-!
# The invariant of the arena

`Arena.Wf` ties the runs of each chunk, the subpages of the table and the class lists together.
`Arena.Backs` says that the bookkeeping accounts for a lease: a run that starts at its page, a slot that
its subpage has lent, or a private chunk of its own. The bookkeeping keeps the regions of leases that it
accounts for apart (`Backs.apart`), as long as they start at different pages of a chunk or in different
chunks; within a page the slots keep them apart.
-/

namespace BufferPool

open Size

/-- Two leases whose regions share no byte. -/
def Lease.Apart (l l' : Lease) : Prop :=
  l.chunk.memory ≠ l'.chunk.memory ∨ l.offset + l.maxLength ≤ l'.offset ∨
    l'.offset + l'.maxLength ≤ l.offset

theorem Lease.Apart.symm {l l' : Lease} (h : l.Apart l') : l'.Apart l := by
  rcases h with h | h | h
  · exact .inl (Ne.symm h)
  · exact .inr (.inr h)
  · exact .inr (.inl h)

/-- The page of a pooled lease. -/
def Lease.page (l : Lease) : Nat :=
  match l.location with
  | .pooled locator => locator.page.toNat
  | .unpooled => 0

/-- The slot of a pooled lease in its page, none for a run. -/
def Lease.slot? (l : Lease) : Option Nat :=
  match l.location with
  | .pooled locator => locator.slot?.map UInt32.toNat
  | .unpooled => none

theorem Lease.page_eq {l : Lease} {r : Locator} (h : l.location = .pooled r) :
    l.page = r.page.toNat := by
  rw [page, h]

theorem Lease.slot?_eq {l : Lease} {r : Locator} (h : l.location = .pooled r) :
    l.slot? = r.slot?.map UInt32.toNat := by
  rw [slot?, h]

/-- A chunk whose pages and subpages agree, on a memory of its own. -/
structure PooledChunk.Wf (config : PoolConfig) (heap : Heap) (table : SubpageTable)
    (c : PooledChunk) : Prop where
  size : c.chunk.size = config.chunkSize
  pooled : c.chunk.unpooled = false
  named : c.chunk.id = c.chunk.memory + 1
  inside : c.chunk.memory < heap.blocks.size
  memory : (heap.get c.chunk.memory).size = config.chunkSize
  pages : c.pages.Wf
  count : c.pages.count = config.chunkPages
  pageSize : c.pages.pageSize = config.pageSize
  carved : ∀ page id, c.pages.carved[page]? = some (some id) → ∃ s, table.get? id = some s ∧
    s.chunk = c.chunk.id ∧ s.page.toNat = page ∧ (s.active = true → c.pages.run page = 1)

namespace Arena

/-- The head of the list of a slot size. -/
def headOf (size : Nat) : SubpageId := ⟨slotIndex size, 0⟩

/-- An arena whose bookkeeping agrees with itself. -/
structure Wf (a : Arena) : Prop where
  config : a.config.Exact
  tiny : ∀ i < tinyClasses, a.tinyHeads[i]? = some ⟨i, 0⟩
  small : ∀ i < smallClasses a.config.pageSize, a.smallHeads[i]? = some ⟨tinyClasses + i, 0⟩
  heads : ∀ i < tinyClasses + smallClasses a.config.pageSize, a.table.IsHead ⟨i, 0⟩
  table : a.table.Wf headOf
  subpages : ∀ x s, a.table.get? x = some s → s.pageSize = a.config.pageSize ∧
    s.offset = s.page.toNat * a.config.pageSize ∧
    (s.active = true → IsSlot a.config.pageSize s.slotSize)
  chunks : ∀ c ∈ a.chunks, c.Wf a.config a.heap a.table
  distinct : ∀ (i j : Nat) (c d : PooledChunk), a.chunks[i]? = some c → a.chunks[j]? = some d →
    c.chunk.id = d.chunk.id → i = j
  recorded : ∀ x s, a.table.get? x = some s → ∃ c ∈ a.chunks, c.chunk.id = s.chunk ∧
    c.pages.carved[s.page.toNat]? = some (some x)
  next : a.nextChunkId = a.heap.blocks.size + 1
  bounded : a.heap.Bounded

/-- The bookkeeping accounts for a lease. -/
inductive Backs (a : Arena) (l : Lease) : Prop where
  /-- A run of whole pages. -/
  | run {c : PooledChunk} {r : Locator} (held : c ∈ a.chunks) (chunk : l.chunk = c.chunk)
      (location : l.location = .pooled r) (whole : r.slot? = none)
      (starts : 0 < c.pages.run r.page.toNat)
      (plain : ∀ id s, c.pages.carved[r.page.toNat]? = some (some id) →
        a.table.get? id = some s → s.active = false)
      (offset : l.offset = r.page.toNat * a.config.pageSize)
      (size : l.maxLength = c.pages.run r.page.toNat * a.config.pageSize)
  /-- A slot of a carved page. -/
  | slot {c : PooledChunk} {r : Locator} {k : UInt32} {id : SubpageId} {s : Subpage}
      (held : c ∈ a.chunks) (chunk : l.chunk = c.chunk) (location : l.location = .pooled r)
      (part : r.slot? = some k) (carved : c.pages.carved[r.page.toNat]? = some (some id))
      (named : a.table.get? id = some s) (active : s.active = true) (lent : s.Lends k.toNat)
      (offset : l.offset = r.page.toNat * a.config.pageSize + k.toNat * s.slotSize)
      (size : l.maxLength = s.slotSize)
  /-- A private chunk. -/
  | own (location : l.location = .unpooled) (unpooled : l.chunk.unpooled = true)
      (named : l.chunk.id = l.chunk.memory + 1) (inside : l.chunk.memory < a.heap.blocks.size)
      (memory : (a.heap.get l.chunk.memory).size = l.chunk.size)
      (apart : ∀ c ∈ a.chunks, c.chunk.memory ≠ l.chunk.memory)
      (offset : l.offset = 0) (size : l.maxLength = l.chunk.size)

variable {a : Arena} {l l' : Lease} {c d : PooledChunk}

/-! ## Chunks by name -/

theorem Wf.eq_of_id (W : a.Wf) (hc : c ∈ a.chunks) (hd : d ∈ a.chunks)
    (h : c.chunk.id = d.chunk.id) : c = d := by
  obtain ⟨i, hi⟩ := Array.mem_iff_getElem?.1 hc
  obtain ⟨j, hj⟩ := Array.mem_iff_getElem?.1 hd
  have same := W.distinct i j c d hi hj h
  rw [same, hj] at hi
  exact (Option.some.inj hi).symm

theorem Wf.eq_of_memory (W : a.Wf) (hc : c ∈ a.chunks) (hd : d ∈ a.chunks)
    (h : c.chunk.memory = d.chunk.memory) : c = d :=
  W.eq_of_id hc hd (by rw [(W.chunks c hc).named, (W.chunks d hd).named, h])

/-- A chunk that is held is found by its number. -/
theorem Wf.chunkIndex_ok (W : a.Wf) (hc : c ∈ a.chunks) :
    ∃ i, a.chunkIndex c.chunk.id = .ok i ∧ a.chunks[i]? = some c := by
  unfold chunkIndex
  cases found : a.chunks.findIdx? fun d => d.chunk.id == c.chunk.id with
  | none =>
    have := Array.findIdx?_eq_none_iff.1 found c hc
    simp at this
  | some i =>
    obtain ⟨inside, same, -⟩ := Array.findIdx?_eq_some_iff_getElem.1 found
    refine ⟨i, rfl, ?_⟩
    have mem : a.chunks[i] ∈ a.chunks := Array.getElem_mem inside
    rw [Array.getElem?_eq_getElem inside, W.eq_of_id mem hc (by simpa using same)]

theorem chunkAt_ok {i : Nat} (h : a.chunks[i]? = some c) : a.chunkAt i = .ok c := by
  rw [chunkAt, h]

theorem mem_of_getElem? {i : Nat} (h : a.chunks[i]? = some c) : c ∈ a.chunks :=
  Array.mem_iff_getElem?.2 ⟨i, h⟩

/-- The subpage recorded for a page of a chunk. -/
theorem Wf.carved_of_get? (W : a.Wf) {x : SubpageId} {s : Subpage} (hs : a.table.get? x = some s)
    (hc : c ∈ a.chunks) (h : c.chunk.id = s.chunk) :
    c.pages.carved[s.page.toNat]? = some (some x) := by
  obtain ⟨d, hd, id, carved⟩ := W.recorded x s hs
  rw [W.eq_of_id hc hd (h.trans id.symm)]
  exact carved

/-- A subpage that is recorded for a page is the one of the page. -/
theorem Wf.of_carved (W : a.Wf) (held : c ∈ a.chunks) {page : Nat} {id : SubpageId} {s : Subpage}
    (carved : c.pages.carved[page]? = some (some id)) (hs : a.table.get? id = some s) :
    s.chunk = c.chunk.id ∧ s.page.toNat = page ∧ (s.active = true → c.pages.run page = 1) := by
  obtain ⟨s', hs', rest⟩ := (W.chunks c held).carved page id carved
  rw [hs] at hs'
  cases hs'
  exact rest

/-! ## List heads -/

theorem Wf.slotIndex_lt (W : a.Wf) {size : Nat} (h : IsSlot a.config.pageSize size) :
    slotIndex size < tinyClasses + smallClasses a.config.pageSize := by
  have bits := W.config.twelve_le_pageBits
  have top := W.config.bits_le
  rcases h with ⟨tiny, -⟩ | ⟨k, hk, rfl, below⟩
  · have := (slotIndex_tiny tiny).2
    omega
  · rw [slotIndex_two_pow hk, W.config.pageSize_eq, smallClasses_two_pow (by omega)]
    rw [W.config.pageSize_eq] at below
    have := (Nat.pow_lt_pow_iff_right (by omega : 1 < 2)).1 below
    omega

theorem Wf.isHead (W : a.Wf) {size : Nat} (h : IsSlot a.config.pageSize size) :
    a.table.IsHead (headOf size) :=
  W.heads _ (W.slotIndex_lt h)

theorem classOf_ok {size : Nat} {kind : Size.Class}
    (h : Size.Class.ofSize size a.config.pageSize a.chunkSize = kind) (numbered : kind.isNumbered size = true) :
    a.classOf size = .ok kind := by
  subst h
  simp only [classOf, Checked.guard_ok numbered, Checked.ok_bind]
  rfl

/-- The list of a size that slots are cut to. -/
theorem Wf.listHead?_slot (W : a.Wf) {size : Nat} (h : IsSlot a.config.pageSize size) :
    a.listHead? size = .ok (some (headOf size)) := by
  have bits := W.config.twelve_le_pageBits
  have top := W.config.bits_le
  have below := h.lt W.config.le_pageSize
  have page := W.config.pageSize_le
  have index := W.slotIndex_lt h
  unfold listHead? headOf
  rcases h with ⟨tiny, -⟩ | ⟨k, hk, rfl, -⟩
  · obtain ⟨eq, lt⟩ := slotIndex_tiny tiny
    have kind := ofSize_tiny tiny below (show size ≤ a.chunkSize by unfold chunkSize; omega)
    rw [eq] at lt ⊢
    simp only [classOf_ok kind rfl, Checked.ok_bind, headAt, W.tiny _ lt]
    rfl
  · have klt : k < 64 := by
      rw [W.config.pageSize_eq] at below
      have := (Nat.pow_lt_pow_iff_right (by omega : 1 < 2)).1 below
      omega
    obtain ⟨small, numbered⟩ := ofSize_small hk klt below
      (show 2 ^ k ≤ a.chunkSize by unfold chunkSize; omega)
    rw [slotIndex_two_pow hk] at index ⊢
    simp only [classOf_ok small numbered, Checked.ok_bind, headAt,
      W.small (k - 9) (by omega)]
    rfl

theorem Wf.listHead_ok (W : a.Wf) {size : Nat} (h : IsSlot a.config.pageSize size) :
    a.listHead size = .ok (headOf size) := by
  rw [listHead, W.listHead?_slot h]
  rfl

/-! ## Regions -/

/-- The slots of a page lie inside it. -/
theorem slot_fits {s : Subpage} {k : Nat} (wf : s.Wf) (lent : s.Lends k) :
    k * s.slotSize + s.slotSize ≤ s.pageSize := by
  rcases lent with ⟨zero, rfl⟩ | mem
  · simp [zero]
  · have lt := (Subpage.mem_leased.1 mem).1
    rw [wf.slots_eq] at lt
    have := Nat.mul_le_of_le_div _ _ _ (Nat.succ_le_of_lt lt)
    rwa [Nat.succ_mul] at this

/-- A pooled lease lies inside the pages of the run that starts at its page. -/
theorem Backs.within (W : a.Wf) (h : a.Backs l) (pooled : l.location ≠ .unpooled) :
    ∃ c ∈ a.chunks, l.chunk = c.chunk ∧ 0 < c.pages.run l.page ∧
      l.page * a.config.pageSize ≤ l.offset ∧
      l.offset + l.maxLength ≤ (l.page + c.pages.run l.page) * a.config.pageSize := by
  cases h with
  | @run c r held chunk location whole starts plain offset size =>
    have page := Lease.page_eq location
    rw [page, offset, size]
    exact ⟨c, held, chunk, starts, Nat.le_refl _, by rw [Nat.add_mul]⟩
  | @slot c r k id s held chunk location part carved named active lent offset size =>
    have page := Lease.page_eq location
    obtain ⟨-, -, one⟩ := W.of_carved held carved named
    have fits := slot_fits (W.table.subpages id s named) lent
    rw [(W.subpages id s named).1] at fits
    rw [page, offset, size]
    refine ⟨c, held, chunk, ?_, Nat.le_add_right .., ?_⟩
    · rw [one active]
      exact Nat.one_pos
    · rw [one active, Nat.add_mul]
      omega
  | own location => exact absurd location pooled

/-- The region of a lease lies inside its chunk, and the chunk is all of its memory. -/
theorem Backs.fits (W : a.Wf) (h : a.Backs l) : l.offset + l.maxLength ≤ l.chunk.size ∧
    l.chunk.memory < a.heap.blocks.size ∧ (a.heap.get l.chunk.memory).size = l.chunk.size := by
  by_cases pooled : l.location = .unpooled
  · cases h with
    | run _ _ location => rw [location] at pooled; cases pooled
    | slot _ _ location => rw [location] at pooled; cases pooled
    | own location unpooled named inside memory apart offset size =>
      rw [offset, size]
      exact ⟨by omega, inside, memory⟩
  · obtain ⟨c, held, chunk, starts, -, high⟩ := h.within W pooled
    have wf := W.chunks c held
    have inside := wf.pages.fits _ starts
    rw [chunk, wf.memory, wf.size]
    refine ⟨Nat.le_trans high ?_, wf.inside, rfl⟩
    rw [← W.config.chunkPages_mul, ← wf.count]
    exact Nat.mul_le_mul_right _ inside

/-- A lease on a shared chunk is pooled, and a run starts at its page. -/
theorem Backs.starts (W : a.Wf) (h : a.Backs l) (held : c ∈ a.chunks) (chunk : l.chunk = c.chunk) :
    l.location ≠ .unpooled ∧ 0 < c.pages.run l.page := by
  have pooled : l.location ≠ .unpooled := by
    intro location
    cases h with
    | run _ _ pooled => rw [pooled] at location; cases location
    | slot _ _ pooled => rw [pooled] at location; cases location
    | own _ unpooled =>
      rw [chunk, (W.chunks c held).pooled] at unpooled
      cases unpooled
  obtain ⟨d, held', chunk', starts, -⟩ := h.within W pooled
  have same : c = d := W.eq_of_memory held held' (by rw [← chunk, chunk'])
  exact ⟨pooled, same ▸ starts⟩

/-- On a carved page there are only slots of its subpage. -/
theorem Backs.of_carved (W : a.Wf) (h : a.Backs l) (held : c ∈ a.chunks) {page : Nat} {id : SubpageId}
    {s : Subpage} (carved : c.pages.carved[page]? = some (some id)) (hs : a.table.get? id = some s)
    (active : s.active = true) (chunk : l.chunk = c.chunk) (here : l.page = page) :
    ∃ j, l.slot? = some j ∧ s.Lends j ∧ l.offset = page * a.config.pageSize + j * s.slotSize ∧
      l.maxLength = s.slotSize := by
  cases h with
  | @run d r held' chunk' location whole starts plain =>
    have dc : d = c := W.eq_of_id held' held (by rw [← chunk', chunk])
    subst dc
    rw [Lease.page_eq location] at here
    rw [plain id s (by rw [here]; exact carved) hs] at active
    cases active
  | @slot d r j x u held' chunk' location part carved' named active' lent offset size =>
    have dc : d = c := W.eq_of_id held' held (by rw [← chunk', chunk])
    subst dc
    rw [Lease.page_eq location] at here
    rw [here, carved] at carved'
    cases carved'
    rw [hs] at named
    cases named
    exact ⟨j.toNat, by rw [Lease.slot?_eq location, part]; rfl, lent, by rw [offset, here], size⟩
  | own _ unpooled =>
    rw [chunk, (W.chunks c held).pooled] at unpooled
    cases unpooled

/-- At a page that is not carved there is only the run that starts there. -/
theorem Backs.of_plain (W : a.Wf) (h : a.Backs l) (held : c ∈ a.chunks) {page : Nat}
    (plain : ∀ id s, c.pages.carved[page]? = some (some id) → a.table.get? id = some s →
      s.active = false) (chunk : l.chunk = c.chunk) (here : l.page = page) :
    l.offset = page * a.config.pageSize ∧ l.maxLength = c.pages.run page * a.config.pageSize := by
  cases h with
  | @run d r held' chunk' location whole starts plain' offset size =>
    have dc : d = c := W.eq_of_id held' held (by rw [← chunk', chunk])
    subst dc
    rw [Lease.page_eq location] at here
    rw [offset, size, here]
    exact ⟨rfl, rfl⟩
  | @slot d r j x u held' chunk' location part carved named active =>
    have dc : d = c := W.eq_of_id held' held (by rw [← chunk', chunk])
    subst dc
    rw [Lease.page_eq location] at here
    rw [plain x u (by rw [← here]; exact carved) named] at active
    cases active
  | own _ unpooled =>
    rw [chunk, (W.chunks c held).pooled] at unpooled
    cases unpooled

/-- Two leases on the same memory are on the same chunk. -/
theorem Backs.chunk_eq (W : a.Wf) (h : a.Backs l) (h' : a.Backs l')
    (same : l.chunk.memory = l'.chunk.memory) : l.chunk = l'.chunk := by
  have pooled : ∀ {k : Lease}, a.Backs k → k.location ≠ .unpooled →
      ∃ c ∈ a.chunks, k.chunk = c.chunk := by
    intro k hk pooled
    obtain ⟨c, held, chunk, -⟩ := hk.within W pooled
    exact ⟨c, held, chunk⟩
  by_cases hl : l.location = .unpooled
  · cases h with
    | run _ _ location => rw [location] at hl; cases hl
    | slot _ _ location => rw [location] at hl; cases hl
    | own _ unpooled named _ memory apart =>
      cases h' with
      | run held chunk => exact absurd (chunk ▸ same).symm (apart _ held)
      | slot held chunk => exact absurd (chunk ▸ same).symm (apart _ held)
      | own _ unpooled' named' _ memory' =>
        rw [same] at memory named
        have size := memory.symm.trans memory'
        have id := named.trans named'.symm
        obtain ⟨⟨_, _, _, _⟩, _, _, _, _⟩ := l
        obtain ⟨⟨_, _, _, _⟩, _, _, _, _⟩ := l'
        simp_all
  · obtain ⟨c, held, chunk⟩ := pooled h hl
    by_cases hl' : l'.location = .unpooled
    · cases h' with
      | run _ _ location => rw [location] at hl'; cases hl'
      | slot _ _ location => rw [location] at hl'; cases hl'
      | own _ _ _ _ _ apart => exact absurd (chunk ▸ same) (apart _ held)
    · obtain ⟨d, held', chunk'⟩ := pooled h' hl'
      rw [chunk, chunk'] at same ⊢
      rw [W.eq_of_memory held held' same]

/-- Leases on different pages of a chunk, or on different chunks, are apart. -/
theorem Backs.apart (W : a.Wf) (h : a.Backs l) (h' : a.Backs l')
    (other : l.chunk = l'.chunk → l.location ≠ .unpooled ∧ l.page ≠ l'.page) : l.Apart l' := by
  by_cases same : l.chunk.memory = l'.chunk.memory
  · have chunk := h.chunk_eq W h' same
    obtain ⟨hl, pages⟩ := other chunk
    obtain ⟨c, held, lc, starts, low, high⟩ := h.within W hl
    have hl' := (h'.starts W held (chunk ▸ lc)).1
    obtain ⟨d, held', ld, starts', low', high'⟩ := h'.within W hl'
    have cd : c = d := W.eq_of_memory held held' (by rw [← lc, ← ld, same])
    subst cd
    have wf := (W.chunks c held).pages
    right
    rcases Nat.lt_or_gt_of_ne pages with before | after
    · left
      have := Nat.mul_le_mul_right a.config.pageSize (wf.apart _ _ before starts')
      omega
    · right
      have := Nat.mul_le_mul_right a.config.pageSize (wf.apart _ _ after starts)
      omega
  · exact .inl same

/-- Leases on different slots of a subpage are apart. -/
theorem apart_of_slots {s : Subpage} {base k k' : Nat} (ne : k ≠ k' ∨ s.slotSize = 0)
    (offset : l.offset = base + k * s.slotSize) (size : l.maxLength = s.slotSize)
    (offset' : l'.offset = base + k' * s.slotSize) (size' : l'.maxLength = s.slotSize) :
    l.Apart l' := by
  right
  rw [offset, size, offset', size']
  rcases ne with ne | zero
  · rcases Nat.lt_or_gt_of_ne ne with before | after
    · have := Nat.mul_le_mul_right s.slotSize before
      rw [Nat.succ_mul] at this
      omega
    · have := Nat.mul_le_mul_right s.slotSize after
      rw [Nat.succ_mul] at this
      omega
  · simp [zero]

/-- A pooled lease is on a chunk that is held, and inside it. -/
theorem Backs.held (W : a.Wf) (h : a.Backs l) {r : Locator} (location : l.location = .pooled r) :
    ∃ c ∈ a.chunks, c.chunk = l.chunk ∧ l.offset + l.maxLength ≤ c.chunk.size := by
  obtain ⟨c, held, chunk, -⟩ := h.within W (by rw [location]; nofun)
  exact ⟨c, held, chunk.symm, chunk ▸ (h.fits W).1⟩

/-- Pooled leases on chunks of one number share the memory. -/
theorem Backs.memory_eq (W : a.Wf) (h : a.Backs l) (h' : a.Backs l') {r r' : Locator}
    (location : l.location = .pooled r) (location' : l'.location = .pooled r')
    (same : l.chunk.id = l'.chunk.id) : l.chunk.memory = l'.chunk.memory := by
  obtain ⟨c, held, chunk, -⟩ := h.held W location
  obtain ⟨d, held', chunk', -⟩ := h'.held W location'
  have named := (W.chunks c held).named
  have named' := (W.chunks d held').named
  rw [chunk] at named
  rw [chunk'] at named'
  exact Nat.succ.inj (named.symm.trans (same.trans named'))

/-- A chunk and a locator determine where a lease starts. -/
theorem Backs.offset_eq (W : a.Wf) (h : a.Backs l) (h' : a.Backs l') {r : Locator}
    (location : l.location = .pooled r) (location' : l'.location = .pooled r)
    (same : l.chunk.id = l'.chunk.id) : l.offset = l'.offset := by
  cases h with
  | @run c q held chunk pooled whole starts plain offset size =>
    cases location.symm.trans pooled
    cases h' with
    | @run d q' held' chunk' pooled' whole' starts' plain' offset' size' =>
      cases location'.symm.trans pooled'
      rw [offset, offset']
    | @slot d q' k id s held' chunk' pooled' part' carved' named' active' lent' offset' size' =>
      cases location'.symm.trans pooled'
      rw [whole] at part'
      cases part'
    | own pooled' => cases location'.symm.trans pooled'
  | @slot c q k id s held chunk pooled part carved named active lent offset size =>
    cases location.symm.trans pooled
    cases h' with
    | @run d q' held' chunk' pooled' whole' starts' plain' offset' size' =>
      cases location'.symm.trans pooled'
      rw [whole'] at part
      cases part
    | @slot d q' k' id' s' held' chunk' pooled' part' carved' named' active' lent' offset' size' =>
      cases location'.symm.trans pooled'
      have cd : c = d := W.eq_of_id held held' (by rw [← chunk, ← chunk', same])
      subst cd
      cases part.symm.trans part'
      cases carved.symm.trans carved'
      cases named.symm.trans named'
      rw [offset, offset']
    | own pooled' => cases location'.symm.trans pooled'
  | own pooled => cases location.symm.trans pooled

end Arena

end BufferPool
