import BufferPool.Arena.Lease
import BufferPool.Proofs.Arena.Books
import BufferPool.Proofs.Lease

/-!
# Leases granted

What a granted lease means for the arena (`Arena.Grants`): it stays well formed, the bookkeeping
accounts for the new lease and still for every lease it accounted for before, the new lease is apart from
all of them, and its place is the only one that was not leased out before. A refused request leaves
everything as it was but for the count of attempts.
-/

namespace BufferPool.Arena

open Size

variable {a a' : Arena} {l : Lease} {c : PooledChunk} {length index page capacity size : Nat}
  {heap : Heap} {id : SubpageId} {s : Subpage}

/-! ## Runs of pages -/

/-- What taking a run of `length` pages at `page` of the chunk at `index` does. -/
structure TakesRun (a : Arena) (length : Nat) (a' : Arena) (c : PooledChunk) (index page : Nat) :
    Prop where
  wf : a'.Wf
  chunk : a'.chunks[index]? = some c
  fits : page + length ≤ a.config.chunkPages
  run : c.pages.run page = length
  plain : ∀ id s, c.pages.carved[page]? = some (some id) → a'.table.get? id = some s →
    s.active = false
  kept : ∀ l, a.Backs l → a'.Backs l
  other : ∀ l, a.Backs l → l.chunk = c.chunk → l.page ≠ page
  config : a'.config = a.config
  heap : a.heap.Extends a'.heap
  active : a'.activeLeases = a.activeLeases
  table : a'.table = a.table
  starts : a'.starts = insert (c.chunk.id, page) a.starts
  grows : a.Grows a'
  tends : a.Tends a'
  returned : a'.counters.returned = a.counters.returned

/-- No chunk has room if none is found that has. -/
theorem takeRun?_of_firstRun?_eq_none : ∀ {chunks : List PooledChunk} {start : Nat},
    firstRun? length chunks start = none → ∀ c ∈ chunks, c.pages.takeRun? length = none
  | [], _, _ => nofun
  | c :: rest, start, h => by
    rw [firstRun?] at h
    split at h
    · cases h
    · rename_i crowded
      exact List.forall_mem_cons.2 ⟨crowded, takeRun?_of_firstRun?_eq_none h⟩

theorem firstRun?_eq_some {m : PageMap} {run : Locator} : ∀ {chunks : List PooledChunk} {start : Nat},
    firstRun? length chunks start = some (index, m, run) →
    ∃ j c, index = start + j ∧ chunks[j]? = some c ∧ c.pages.takeRun? length = some (m, run)
  | [], _, h => by cases h
  | c :: rest, start, h => by
    rw [firstRun?] at h
    split at h
    · rename_i found
      cases h
      exact ⟨0, c, rfl, rfl, found⟩
    · obtain ⟨j, d, rfl, hd, found⟩ := firstRun?_eq_some h
      exact ⟨j + 1, d, by omega, hd, found⟩

/-- A run of the pages of a chunk that is held already. -/
theorem takesRun_withPages (W : a.Wf) {m : PageMap} (hi : a.chunks[index]? = some c)
    (takes : c.pages.Takes length page m) :
    a.TakesRun length (a.withPages index m) { c with pages := m } index page := by
  have held := mem_of_getElem? hi
  have old := W.chunks c held
  have idle : c.pages.run page = 0 := old.pages.run_of_unused
    (takes.free page (Nat.le_refl _) (Nat.lt_add_of_pos_right takes.positive))
  have notActive : ∀ id s, c.pages.carved[page]? = some (some id) → a.table.get? id = some s →
      s.active = false := by
    intro id s carved hs
    obtain ⟨-, -, one⟩ := W.of_carved held carved hs
    cases active : s.active with
    | false => rfl
    | true =>
      rw [one active] at idle
      cases idle
  have other : ∀ l, a.Backs l → l.chunk = c.chunk → l.page ≠ page := by
    intro l b chunk equal
    subst equal
    have := (b.starts W held chunk).2
    omega
  refine ⟨W.withPages hi takes.same takes.wf fun p id s carved hs active => ?_, ?_, ?_, ?_, ?_,
    fun l b => b.withPages W hi takes.same fun chunk _ => ?_, other, rfl,
    Heap.extends_of_blocks rfl, rfl, rfl, starts_taken W hi takes.positive takes.run, grows_withPages,
    tends_withPages hi fun _ _ => ⟨page, takes.starts⟩, rfl⟩
  · obtain ⟨-, -, one⟩ := W.of_carved held carved hs
    rw [takes.run, if_neg, one active]
    intro equal
    subst equal
    rw [notActive id s carved hs] at active
    cases active
  · rw [getElem?_withPages, if_pos rfl, hi]
    rfl
  · rw [← old.count]
    exact takes.fits
  · exact (takes.run page).trans (if_pos rfl)
  · intro id s carved hs
    exact notActive id s (by rw [← takes.same.carved]; exact carved) hs
  · exact (takes.run _).trans (if_neg (other l b chunk))

/-- A request that was refused: everything but the count of attempts is as before. -/
def Refused (a a' : Arena) : Prop := ∃ heap, a' = { a with heap := heap } ∧ heap.blocks = a.heap.blocks

theorem growTakingRun_yields (W : a.Wf) (positive : 0 < length) (fits : length ≤ a.config.chunkPages)
    (crowded : ∀ d ∈ a.chunks, d.pages.takeRun? length = none) :
    (a.growTakingRun length).Yields fun r =>
      (∃ refusal, r.2 = .error refusal ∧ a.Refused r.1) ∨
      ∃ index page c, r.2 = .ok (index, .run (.ofNat page)) ∧ a.TakesRun length r.1 c index page := by
  unfold growTakingRun
  by_cases full : a.isFull = true
  · rw [if_pos full]
    exact Checked.yields_ok.2 (.inl ⟨_, rfl, a.heap, rfl, rfl⟩)
  · rw [if_neg full]
    rcases a.heap.obtain?_cases a.chunkSize with ⟨heap, e, same⟩ | ⟨heap, e, grown, small⟩
    · simp only [e]
      exact Checked.yields_ok.2 (.inl ⟨_, rfl, heap, rfl, same⟩)
    · have blank := PageMap.wf_ofPages a.config.chunkPages a.config.pageSize
      obtain ⟨m, hm⟩ := PageMap.takeRun?_of_blank blank (PageMap.run_ofPages _ _) positive
        (by rw [PageMap.count_ofPages]; exact fits)
      obtain ⟨page, run, takes⟩ := PageMap.takes_of_takeRun? blank hm
      have hm' : (PageMap.ofPages (a.chunkSize / a.config.pageSize) a.config.pageSize).takeRun? length =
        some (m, .run 0) := hm
      simp only [e, hm']
      set c : PooledChunk := ⟨⟨a.nextChunkId, a.heap.blocks.size, a.chunkSize, false⟩, m⟩ with ec
      refine Checked.yields_ok.2 (.inr ⟨a.chunks.size, page, c, by rw [run], ?_⟩)
      have W1 := W.withMemory grown small
      have blank : ∀ (p : Nat) (id : SubpageId), m.carved[p]? ≠ some (some id) := by
        intro p id carved
        rw [takes.same.carved] at carved
        simp only [PageMap.ofPages, Array.getElem?_replicate] at carved
        split at carved <;> cases carved
      have older : ∀ d ∈ a.chunks, d.chunk.memory < a.heap.blocks.size := fun d hd =>
        (W.chunks d hd).inside
      have wf : c.Wf a.config heap a.table := by
        refine ⟨rfl, rfl, W.next, ?_, ?_, takes.wf, ?_, takes.same.pageSize, fun p id carved => ?_⟩
        · have size := congrArg Array.size grown
          rw [Array.size_push] at size
          change a.heap.blocks.size < heap.blocks.size
          omega
        · rw [Heap.get_push grown, if_pos rfl]
          rfl
        · rw [takes.same.count, PageMap.count_ofPages]
        · exact absurd carved (blank p id)
      have W2 := W1.withChunk wf fun d hd e => by
        change d.chunk.id = a.nextChunkId at e
        rw [(W.chunks d hd).named, W.next] at e
        exact absurd (Nat.succ.inj e) (Nat.ne_of_lt (older d hd))
      have fresh : ∀ l, a.Backs l → l.chunk.memory ≠ c.chunk.memory := fun l b =>
        Nat.ne_of_lt (b.fits W).2.1
      refine ⟨(sameBooks_count _ _).wf W2, ?_, ?_, ?_, fun id s carved => absurd carved (blank _ id),
        fun l b => (sameBooks_count _ _).backs ((b.withMemory grown).withChunk (fresh l b)),
        fun l b chunk => absurd (congrArg Chunk.memory chunk) (fresh l b), rfl,
        Heap.extends_of_push grown, rfl, rfl, ?_, ⟨Nat.le_succ _, fun d hd => ?_,
        fun x s hs => ⟨s, hs, .refl s⟩, fun _ => rfl, rfl⟩,
        tends_grown W (Bool.eq_false_of_not_eq_true full) positive fits crowded ⟨page, takes.starts⟩ rfl
          rfl rfl, rfl⟩
      · exact Array.getElem?_push_size
      · rw [← PageMap.count_ofPages a.config.chunkPages a.config.pageSize]
        exact takes.fits
      · exact (takes.run page).trans (if_pos rfl)
      · refine starts_withChunk (a := a) (c := c) takes.positive fun p => ?_
        rw [show c.pages = m from rfl, takes.run, PageMap.run_ofPages]
      · rcases Array.mem_push.1 hd with old | rfl
        · exact .inl ⟨d, old, rfl⟩
        · exact .inr (Nat.le_refl _)

/-- A run of pages is taken from the first chunk with room for it, or from a new one. -/
theorem takeRun_yields (W : a.Wf) (positive : 0 < length) (fits : length ≤ a.config.chunkPages) :
    (a.takeRun length).Yields fun r =>
      (∃ refusal, r.2 = .error refusal ∧ a.Refused r.1) ∨
      ∃ index page c, r.2 = .ok (index, .run (.ofNat page)) ∧ a.TakesRun length r.1 c index page := by
  unfold takeRun
  split
  · rename_i index m run found
    obtain ⟨j, c, rfl, hc, taken⟩ := firstRun?_eq_some found
    rw [Array.getElem?_toList, ← Nat.zero_add j] at hc
    obtain ⟨page, rfl, takes⟩ :=
      PageMap.takes_of_takeRun? (W.chunks c (mem_of_getElem? hc)).pages taken
    exact Checked.yields_ok.2 (.inr ⟨_, page, _, rfl, takesRun_withPages W hc takes⟩)
  · rename_i crowded
    exact growTakingRun_yields W positive fits fun d hd =>
      takeRun?_of_firstRun?_eq_none crowded d (Array.mem_toList_iff.2 hd)

/-- The chunks, each with the marks of its pages. -/
def marks (a : Arena) : Array (Chunk × Array Bool) := a.chunks.map fun c => (c.chunk, c.pages.used)

theorem marks_withPages {m : PageMap} (hi : a.chunks[index]? = some c) (same : m.used = c.pages.used) :
    (a.withPages index m).marks = a.marks := by
  refine Array.ext_getElem? fun i => ?_
  rw [marks, marks, Array.getElem?_map, Array.getElem?_map, getElem?_withPages]
  split
  · rename_i here
    rw [← here, hi]
    exact congrArg some (Prod.ext rfl same)
  · rfl

/-- A request for a lease that takes a run of `length` pages is refused if there are none, and gets a lease
that starts with them. No other page is marked for it. -/
inductive FromRun (a : Arena) (length : Nat) (a' : Arena) : Answered Lease → Prop where
  | refused {refusal : Refusal} (taken : a.takeRun length = .ok (a', .error refusal)) :
      FromRun a length a' (.error refusal)
  | granted {a₁ : Arena} {index : Nat} {run : Locator} {c : PooledChunk} {l : Lease}
      (taken : a.takeRun length = .ok (a₁, .ok (index, run))) (chunk : a₁.chunks[index]? = some c)
      (on : l.chunk.id = c.chunk.id) (starts : l.page = run.page.toNat) (marks : a'.marks = a₁.marks) :
      FromRun a length a' (.ok l)

/-! ## Slots -/

/-- What granting a lease of `capacity` bytes on a region of `size` bytes does. -/
structure Cuts (a : Arena) (capacity size : Nat) (a' : Arena) (l : Lease) : Prop where
  wf : a'.Wf
  backs : a'.Backs l
  kept : ∀ k, a.Backs k → a'.Backs k
  apart : ∀ k, a.Backs k → l.Apart k
  length : l.length = capacity
  region : l.maxLength = size
  config : a'.config = a.config
  heap : a.heap.Extends a'.heap
  adds : a.Adds l a'

/-- What granting a lease of `capacity` bytes does. -/
structure Grants (a : Arena) (capacity : Nat) (a' : Arena) (l : Lease) : Prop
    extends Cuts a capacity (a.rounded capacity) a' l where
  unpooled : l.location = .unpooled ↔ a.config.chunkSize < capacity

theorem Grants.fits (h : a.Grants capacity a' l) : capacity ≤ l.maxLength := by
  rw [h.region]
  exact le_rounded capacity a.chunkSize

theorem Grants.sized (h : a.Grants capacity a' l) : l.Sized a.config.chunkSize where
  unpooled := by rw [h.length]; exact h.unpooled
  region := by rw [h.length]; exact h.region

/-- A slot of the carved subpage `id` was taken for a lease. -/
structure TakesSlot (a : Arena) (id : SubpageId) (s : Subpage) (l : Lease) (a' : Arena) : Prop where
  bears : Bears s l
  size : l.maxLength = s.slotSize
  taken : ∃ k s', l.slot? = some k ∧ Subpage.Leases s k s' ∧
    a'.active? = Function.update a.active? id (some s')
  starts : a'.starts = a.starts
  grows : a.Grows a'
  tends : a.Tends a'
  returned : a'.counters.returned = a.counters.returned

theorem TakesSlot.adds (h : a.TakesSlot id s l a') (was : a.active? id = some s) : a.Adds l a' := by
  obtain ⟨k, s', slot, leases, active⟩ := h.taken
  exact ⟨.listed slot h.bears h.size was leases h.starts active, h.grows, h.tends,
    h.returned⟩

/-- A chunk is not larger than 1 GiB, and neither is a page. -/
theorem Wf.pageSize_le (W : a.Wf) : a.config.pageSize ≤ 2 ^ 30 :=
  Nat.le_trans W.config.pageSize_le W.config.chunkSize_le

theorem Wf.page_mul_le (W : a.Wf) (h : page < a.config.chunkPages) :
    page * a.config.pageSize + a.config.pageSize ≤ 2 ^ 30 := by
  have := Nat.mul_le_mul_right a.config.pageSize h
  rw [Nat.succ_mul, W.config.chunkPages_mul] at this
  exact Nat.le_trans this W.config.chunkSize_le

/-- The page of a carved subpage is a page of its chunk. -/
theorem Wf.page_lt (W : a.Wf) (held : c ∈ a.chunks)
    (carved : c.pages.carved[page]? = some (some id)) : page < a.config.chunkPages := by
  have wf := W.chunks c held
  rw [← wf.count, ← wf.pages.carved_size]
  by_contra beyond
  rw [Array.getElem?_eq_none (Nat.le_of_not_lt beyond)] at carved
  cases carved

/-- The lease of slot `slot` of a carved page. -/
def slotOf (a : Arena) (c : PooledChunk) (s : Subpage) (slot : Nat) (locator : Locator)
    (capacity : Nat) : Lease :=
  ⟨c.chunk, .pooled locator, s.page.toNat * a.config.pageSize + slot * s.slotSize, capacity, s.slotSize⟩

/-- The lease that a locator names lies in its page, so no sum leaves the machine words. -/
theorem slotLease_eq (W : a.Wf) (held : c ∈ a.chunks) (hs : a.table.get? id = some s)
    (chunk : c.chunk.id = s.chunk) {slot : Nat} (lent : s.Lends slot) {locator : Locator}
    (located : locator.slot? = some (.ofNat slot)) (bound : slot < 2 ^ 30) (capacity : Nat) :
    a.slotLease id locator capacity = .ok (a.slotOf c s slot locator capacity) := by
  obtain ⟨pageSize, offset, -⟩ := W.subpages id s hs
  have small : (UInt32.ofNat slot).toNat = slot :=
    UInt32.toNat_ofNat_of_lt' (Nat.lt_trans bound (by decide))
  have inside := slot_fits (W.table.subpages id s hs) lent
  rw [pageSize] at inside
  have region := W.page_mul_le (W.page_lt held (W.carved_of_get? hs held chunk))
  have word : Word.bound = 2 ^ 64 := rfl
  have start : Word.mul slot s.slotSize = .ok (slot * s.slotSize) := Word.mul_ok (by omega)
  have sum : Word.add s.offset (slot * s.slotSize) =
      .ok (s.page.toNat * a.config.pageSize + slot * s.slotSize) := by
    rw [offset]
    exact Word.add_ok (by omega)
  obtain ⟨i, found, hi⟩ := W.chunkIndex_ok held
  unfold slotLease
  simp only [SubpageTable.get_ok hs, located, Option.getD_some, small, ← chunk, found, chunkAt_ok hi,
    start, sum, Checked.ok_bind]
  rfl

/-- A subpage that offers a slot grants a lease of it. -/
theorem leaseAt_yields (W : a.Wf) (hs : a.table.get? id = some s) (offers : s.Offers) (capacity : Nat) :
    (a.table.lease id).Yields fun r => ∃ locator, r.2 = some locator ∧
      ({ a with table := r.1 }.slotLease id locator capacity).Yields fun l =>
        a.Cuts capacity s.slotSize { a with table := r.1 } l ∧ l.location = Location.pooled locator ∧
          a.TakesSlot id s l { a with table := r.1 } := by
  obtain ⟨pageSize, -, isSlot⟩ := W.subpages id s hs
  have few := Subpage.slots_lt (W.table.subpages id s hs) (by rw [pageSize]; exact W.pageSize_le)
  apply ((SubpageTable.lease_yields W.table hs offers (Nat.le_of_lt few)).and_gives
    (SubpageTable.lease_keeps_idleLast W.table hs offers (Nat.le_of_lt few))).mono
  intro ⟨t, _⟩ outcome
  obtain ⟨⟨slot, locator, s', rfl, bound, located, wf, replaces, leases⟩, idleLast⟩ := outcome
  obtain ⟨c, held, chunk, carved⟩ := W.recorded id s hs
  obtain ⟨-, -, one⟩ := W.of_carved held carved hs
  obtain ⟨page_eq, slot_eq⟩ := Locator.of_slot_eq located
  have same := leases.same
  have W' : { a with table := t }.Wf := W.withTable hs replaces wf same.toSamePage fun _ => by
    rw [same.slotSize]
    refine ⟨isSlot offers.active, fun d hd number => ?_⟩
    rw [W.eq_of_id hd held (number.trans chunk.symm)]
    exact one offers.active
  have named : t.get? id = some s' := by rw [replaces.get?, if_pos rfl]
  have granted := slotLease_eq W' held named (chunk.trans same.chunk.symm) leases.lent slot_eq bound
    capacity
  refine ⟨locator, rfl, ?_⟩
  rw [granted]
  set l := { a with table := t }.slotOf c s' slot locator capacity with el
  have location : l.location = .pooled locator := rfl
  have page : l.page = s.page.toNat := by rw [Lease.page_eq location, page_eq]
  have offset : l.offset = s.page.toNat * a.config.pageSize + slot * s.slotSize := by
    rw [el, slotOf, same.page, same.slotSize]
  have kept : ∀ k, a.Backs k → { a with table := t }.Backs k := fun k b =>
    b.withTable W hs replaces
      (fun _ _ _ j _ lent => ⟨same.active.trans offers.active, same.slotSize, leases.kept j lent⟩)
      fun idle => by rw [offers.active] at idle; cases idle
  have small : (UInt32.ofNat slot).toNat = slot :=
    UInt32.toNat_ofNat_of_lt' (Nat.lt_trans bound (by decide))
  have backs : { a with table := t }.Backs l := by
    refine .slot held rfl location slot_eq ?_ named (same.active.trans offers.active) ?_ ?_ rfl
    · rw [page_eq]
      exact carved
    · rw [small]
      exact leases.lent
    · rw [page_eq, small, offset, same.slotSize]
  have takes : a.TakesSlot id s l { a with table := t } := by
    refine ⟨⟨chunk.symm, page.symm⟩, same.slotSize, ⟨slot, s', ?_, leases, ?_⟩, rfl, ?_,
      tends_of_chunks rfl rfl idleLast, rfl⟩
    · rw [Lease.slot?_eq location, slot_eq]
      exact congrArg some small
    · rw [active?_withTable replaces, Option.filter_some, if_pos (same.active.trans offers.active)]
    · refine grows_withTable replaces fun u hu => ?_
      rw [hs] at hu
      cases hu
      exact same.toSamePage
  have was : a.active? id = some s := active?_eq_some.2 ⟨hs, offers.active⟩
  refine Checked.yields_ok.2 ⟨⟨W', backs, kept, fun k b => ?_, rfl, same.slotSize, rfl,
    Heap.extends_of_blocks rfl, takes.adds was⟩, rfl, takes⟩
  by_cases here : k.chunk = l.chunk ∧ k.page = l.page
  · -- On the page of the slot itself there are only other slots of the subpage.
    obtain ⟨j, -, lent, offset', size'⟩ :=
      b.of_carved W held carved hs offers.active here.1 (here.2.trans page)
    have other : slot ≠ j ∨ s.slotSize = 0 := by
      by_cases zero : s.slotSize = 0
      · exact .inr zero
      · exact .inl fun e => leases.fresh zero (e ▸ lent)
    exact apart_of_slots other offset same.slotSize offset' size'
  · exact backs.apart W' (kept k b) fun sameChunk =>
      ⟨by rw [location]; nofun, fun samePage => here ⟨sameChunk.symm, samePage.symm⟩⟩

theorem Cuts.of_kept {a₀ : Arena} (g : a.Cuts capacity size a' l)
    (kept : ∀ k, a₀.Backs k → a.Backs k) (config : a.config = a₀.config)
    (heap : a₀.heap.Extends a.heap) (adds : a₀.Adds l a') : a₀.Cuts capacity size a' l where
  wf := g.wf
  backs := g.backs
  kept k b := g.kept k (kept k b)
  apart k b := g.apart k (kept k b)
  length := g.length
  region := g.region
  config := g.config.trans config
  heap := heap.trans g.heap
  adds := adds

/-- A request for a slot is served from the front of the list of its size, or from a page that is taken if
that list has no front. -/
inductive FromSlots (a : Arena) (size : Nat) (a' : Arena) : Answered Lease → Prop where
  | listed {id : SubpageId} {s : Subpage} {l : Lease} (front : a.table.front? (headOf size) = .ok (some id))
      (named : a.table.get? id = some s) (takes : a.TakesSlot id s l a') (chunks : a'.chunks = a.chunks) :
      FromSlots a size a' (.ok l)
  | fresh {answer : Answered Lease} (front : a.table.front? (headOf size) = .ok none)
      (run : a.FromRun 1 a' answer) : FromSlots a size a' answer

/-- The front of a list grants a slot of its size; a list without a front has none. -/
theorem leaseListed?_yields (W : a.Wf) (slot : IsSlot a.config.pageSize size) (capacity : Nat) :
    (a.leaseListed? (headOf size) size).Yields fun found => match found with
      | some (t, id, locator) => a.table.front? (headOf size) = .ok (some id) ∧
          ∃ s, a.table.get? id = some s ∧ ({ a with table := t }.slotLease id locator capacity).Yields fun l =>
            a.Cuts capacity size { a with table := t } l ∧ l.location = Location.pooled locator ∧
              a.TakesSlot id s l { a with table := t }
      | none => a.table.front? (headOf size) = .ok none ∧
          ∀ y u, a.active? y = some u → u.Offers → u.slotSize ≠ size := by
  unfold leaseListed?
  obtain ⟨outcome, eq, front⟩ := SubpageTable.front?_yields W.table (W.isHead slot)
  refine .bind_ok eq ?_
  rcases outcome with _ | id
  · refine Checked.yields_pure.2 ⟨eq, fun y u hu offers e => ?_⟩
    exact front y u (active?_eq_some.1 hu).1 offers (by rw [e])
  · obtain ⟨s, hs, offers, listed⟩ := front
    have size_eq : s.slotSize = size :=
      ((W.subpages id s hs).2.2 offers.active).eq_of_slotIndex slot
        (congrArg SubpageId.node listed)
    subst size_eq
    refine .bind_ok (SubpageTable.get_ok hs) (.guard (beq_self_eq_true _) ?_)
    apply (leaseAt_yields W hs offers capacity).bind
    intro ⟨t, _⟩ outcome
    obtain ⟨locator, rfl, granted⟩ := outcome
    exact Checked.yields_pure.2 ⟨eq, s, hs, granted⟩

/-- The page of a run that was just taken gets ready to be carved: it has a subpage now. -/
structure Readies (a : Arena) (c : PooledChunk) (number : UInt32) (a' : Arena) (id : SubpageId)
    (s : Subpage) : Prop where
  wf : a'.Wf
  named : a'.table.get? id = some s
  idle : s.active = false
  chunk : s.chunk = c.chunk.id
  page : s.page = number
  runs : ∀ d ∈ a'.chunks, d.chunk.id = c.chunk.id → d.pages.run = c.pages.run
  kept : ∀ k, a.Backs k → a'.Backs k
  config : a'.config = a.config
  heap : a'.heap = a.heap
  leases : a'.activeLeases = a.activeLeases
  starts : a'.starts = a.starts
  active : a'.active? = a.active?
  grows : a.Grows a'
  tends : a.Tends a'
  returned : a'.counters.returned = a.counters.returned
  marks : a'.marks = a.marks

theorem subpageFor_yields (W : a.Wf) {number : UInt32} (hi : a.chunks[index]? = some c)
    (inside : number.toNat < a.config.chunkPages)
    (plain : ∀ id s, c.pages.carved[number.toNat]? = some (some id) → a.table.get? id = some s →
      s.active = false) :
    (a.subpageFor index number).Yields fun r => ∃ s, a.Readies c number r.1 r.2 s := by
  have held := mem_of_getElem? hi
  have old := W.chunks c held
  have bound : number.toNat < c.pages.carved.size := by
    rw [old.pages.carved_size, old.count]
    exact inside
  unfold subpageFor
  refine .bind_ok (chunkAt_ok hi) ?_
  cases recorded : c.pages.carved[number.toNat]? with
  | none =>
    rw [Array.getElem?_eq_getElem bound] at recorded
    cases recorded
  | some found =>
    refine .bind_ok (a := found) (by rw [PageMap.subpageAt, recorded]) ?_
    cases found with
    | some id =>
      obtain ⟨s, hs, chunk, page, -⟩ := old.carved _ _ recorded
      refine Checked.yields_pure.2 ⟨s, W, hs, plain id s recorded hs, chunk,
        UInt32.toNat_inj.1 page, fun d hd e => ?_, fun k b => b, rfl, rfl, rfl, rfl, rfl, .refl a,
        (SameCarving.refl a).tends, rfl, rfl⟩
      rw [W.eq_of_id hd held e]
    | none =>
      have region := W.page_mul_le inside
      have offset : c.pages.offset number.toNat = .ok (number.toNat * a.config.pageSize) := by
        rw [PageMap.offset, old.pageSize]
        apply Word.mul_ok
        unfold Word.bound
        omega
      refine .bind_ok offset ?_
      set s := Subpage.ofPage c.chunk.id number (number.toNat * a.config.pageSize) a.config.pageSize
        with es
      have page : Subpage.PageFits a.config.pageSize := by
        rw [W.config.pageSize_eq]
        exact Subpage.pageFits_two_pow _
      obtain ⟨fresh, replaces, wf⟩ := SubpageTable.insert_yields W.table
        (Subpage.wf_ofPage c.chunk.id number (number.toNat * a.config.pageSize) page) rfl
      refine .bind_ok (if_pos bound) (Checked.yields_pure.2 ⟨s, W.withSubpage hi recorded fresh replaces
        wf rfl rfl rfl rfl rfl, ?_, rfl, rfl, rfl, fun d hd e => ?_,
        fun k b => b.withSubpage W hi recorded fresh replaces rfl, rfl, rfl, rfl,
        starts_withPages (a := a) W hi fun _ => rfl, ?_, ?_, ?_, rfl, marks_withPages (a := a) hi rfl⟩)
      · exact (replaces.get? _).trans (if_pos rfl)
      · rcases (mem_withPages (a := a) W hi).1 hd with rfl | ⟨-, ne⟩
        · rfl
        · exact absurd e ne
      · refine (active?_withTable replaces).trans (update_active?_none ?_)
        rw [active?, fresh]
        rfl
      · refine (grows_withTable replaces fun u hu => ?_).trans grows_withPages
        rw [fresh] at hu
        cases hu
      · refine (tends_withPages hi fun _ starts => ?_).trans
          (tends_of_chunks rfl rfl (SubpageTable.insert_keeps_idleLast W.table))
        exact starts

/-- A free page is carved, where no carved one of the size offers a slot, and grants its first slot. -/
theorem leaseFresh_yields (W : a.Wf) (slot : IsSlot a.config.pageSize size) (capacity : Nat)
    (needed : ∀ y u, a.active? y = some u → u.Offers → u.slotSize ≠ size) :
    (a.leaseFresh (headOf size) size capacity).Yields fun r =>
      ((∃ refusal, r.2 = .error refusal ∧ a.Refused r.1) ∨
      ∃ l, r.2 = .ok l ∧ a.Cuts capacity size r.1 l ∧ l.location ≠ .unpooled ∧
        r.1.activeLeases = a.activeLeases) ∧ a.FromRun 1 r.1 r.2 := by
  unfold leaseFresh
  obtain ⟨⟨a1, answer⟩, taken, outcome⟩ := takeRun_yields W Nat.one_pos W.config.chunkPages_pos
  refine .bind_ok taken ?_
  rcases outcome with ⟨refusal, rfl, refused⟩ | ⟨index, page, c, rfl, takes⟩
  · exact Checked.yields_pure.2 ⟨.inl ⟨refusal, rfl, refused⟩, .refused taken⟩
  have W1 := takes.wf
  have inside := takes.fits
  have number : (UInt32.ofNat page).toNat = page :=
    UInt32.toNat_ofNat_of_lt' (Nat.lt_of_lt_of_le (by omega : page < a.config.chunkPages)
      (Nat.le_of_lt W.config.chunkPages_lt))
  simp only [Locator.page_run]
  refine (subpageFor_yields W1 takes.chunk (by rw [number, takes.config]; omega)
    (by rw [number]; exact takes.plain)).bind ?_
  intro ⟨a2, id⟩ ⟨s, readies⟩
  have W2 := readies.wf
  have hs := readies.named
  have idle := readies.idle
  have chunk := readies.chunk
  have page_eq := readies.page
  have config : a2.config = a.config := readies.config.trans takes.config
  have slot2 : IsSlot a2.config.pageSize size := by rw [config]; exact slot
  have step : size = 0 ∨ step ≤ size ∧ size ≤ s.pageSize := by
    by_cases zero : size = 0
    · exact .inl zero
    · rw [(W2.subpages id s hs).1]
      exact .inr ⟨slot2.step_le zero, Nat.le_of_lt (slot2.lt W2.config.le_pageSize)⟩
  -- The page was free and unseen before it was carved.
  have seen : a2.active? = a.active? := readies.active.trans (active?_congr takes.table)
  have none : ∀ y u, a2.table.get? y = some u → u.Offers → headOf u.slotSize ≠ headOf size := by
    intro y u hu offers same
    have hy : a2.active? y = some u := active?_eq_some.2 ⟨hu, offers.active⟩
    refine needed y u (seen ▸ hy) offers ((W2.subpages y u hu).2.2 offers.active |>.eq_of_slotIndex slot2 ?_)
    exact congrArg SubpageId.node same
  apply ((SubpageTable.enlist_yields W2.table hs (Subpage.not_offers idle) (W2.isHead slot2) step).and_gives
    (SubpageTable.enlist_keeps_idleLast W2.table hs (Subpage.not_offers idle) (W2.isHead slot2) step none)).bind
  intro t outcome
  obtain ⟨⟨s', wf, replaces, same, offers, carved, blank⟩, idleLast⟩ := outcome
  have W3 : { a2 with table := t }.Wf := W2.withTable hs replaces wf same fun _ => by
    refine ⟨by rw [carved]; exact slot2, fun d hd e => ?_⟩
    rw [readies.runs d hd (e.trans chunk), page_eq, number, takes.run]
  have kept : ∀ k, a.Backs k → { a2 with table := t }.Backs k := fun k b => by
    refine (readies.kept k (takes.kept k b)).withTable W2 hs replaces
      (fun active => by rw [idle] at active; cases active) fun _ sameChunk samePage pooled => ?_
    -- Whatever was leased before does not start at the page that was just taken.
    obtain ⟨d, held, kd, -⟩ := (takes.kept k b).within W1 pooled
    have dc : d = c := W1.eq_of_id held (mem_of_getElem? takes.chunk) (by rw [← kd, sameChunk, chunk])
    rw [page_eq, number] at samePage
    exact absurd samePage (takes.other k b (by rw [kd, dc]))
  have named : ({ a2 with table := t } : Arena).table.get? id = some s' := by
    change t.get? id = some s'
    rw [replaces.get?, if_pos rfl]
  apply (leaseAt_yields W3 named offers capacity).bind
  intro ⟨t', _⟩ outcome
  obtain ⟨locator, rfl, granted⟩ := outcome
  apply granted.bind
  intro l ⟨cuts, location, slotTaken⟩
  rw [carved] at cuts
  have carves : { a2 with table := t }.active? = Function.update a.active? id (some s') := by
    rw [active?_withTable replaces, seen, Option.filter_some, if_pos offers.active]
  have bears := slotTaken.bears
  have grows : a.Grows { a2 with table := t } :=
    (takes.grows.trans readies.grows).trans (grows_withTable replaces fun u hu => by
      rw [hs] at hu
      cases hu
      exact same)
  have tends : a.Tends { a2 with table := t } :=
    (takes.tends.trans readies.tends).trans (tends_of_chunks rfl rfl idleLast)
  have adds : a.Adds l { a2 with table := t' } := by
    obtain ⟨k, s'', hslot, leases, active⟩ := slotTaken.taken
    refine ⟨.fresh (x := id) hslot bears slotTaken.size ?_ blank leases ?_ ?_ ?_, grows.trans slotTaken.grows,
      tends.trans slotTaken.tends, slotTaken.returned.trans (readies.returned.trans takes.returned)⟩
    · rw [← seen]
      exact active?_eq_none_of_idle hs idle
    · rw [carved]
      exact needed
    · rw [slotTaken.starts, ← bears.chunk, ← bears.page, same.chunk, same.page, chunk, page_eq, number,
        ← takes.starts]
      exact readies.starts
    · rw [active, carves, Function.update_idem]
  have heap : a.heap.Extends ({ a2 with table := t' } : Arena).heap := by
    change a.heap.Extends a2.heap
    rw [readies.heap]
    exact takes.heap
  have on : l.chunk.id = c.chunk.id := bears.chunk.symm.trans (same.chunk.trans chunk)
  have start : l.page = (Locator.run (.ofNat page)).page.toNat := by
    rw [← bears.page, same.page, page_eq, Locator.page_run]
  exact Checked.yields_pure.2 ⟨.inr ⟨l, rfl, cuts.of_kept kept config heap adds,
    by rw [location]; nofun, readies.leases.trans takes.active⟩,
    .granted taken takes.chunk on start readies.marks⟩

/-- A request that is served from slots. -/
theorem leaseSlot_yields (W : a.Wf) (slot : IsSlot a.config.pageSize size) (capacity : Nat) :
    (a.leaseSlot size capacity).Yields fun r =>
      ((∃ refusal, r.2 = .error refusal ∧ a.Refused r.1) ∨
      ∃ l, r.2 = .ok l ∧ a.Cuts capacity size r.1 l ∧ l.location ≠ .unpooled ∧
        r.1.activeLeases = a.activeLeases) ∧ a.FromSlots size r.1 r.2 := by
  unfold leaseSlot
  refine .bind_ok (W.listHead_ok slot) ((leaseListed?_yields W slot capacity).bind ?_)
  intro outcome found
  rcases outcome with _ | ⟨t, id, locator⟩
  · obtain ⟨front, needed⟩ := found
    exact (leaseFresh_yields W slot capacity needed).mono fun r h => ⟨h.1, .fresh front h.2⟩
  · obtain ⟨front, s, hs, granted⟩ := found
    apply granted.bind
    intro l ⟨cuts, location, takes⟩
    exact Checked.yields_pure.2 ⟨.inr ⟨l, rfl, cuts, by rw [location]; nofun, rfl⟩,
      .listed front hs takes rfl⟩

/-! ## Requests -/

/-- A request that is served from whole pages. -/
theorem leaseRun_yields (W : a.Wf) (least : a.config.pageSize ≤ size)
    (most : size ≤ a.config.chunkSize) (pages : a.config.pageSize ∣ size) (capacity : Nat) :
    (a.leaseRun size capacity).Yields fun r =>
      ((∃ refusal, r.2 = .error refusal ∧ a.Refused r.1) ∨
      ∃ l, r.2 = .ok l ∧ a.Cuts capacity size r.1 l ∧ l.location ≠ .unpooled ∧
        r.1.activeLeases = a.activeLeases) ∧ a.FromRun (size / a.config.pageSize) r.1 r.2 := by
  have page := W.config.le_pageSize
  have exactly := Nat.div_mul_cancel pages
  unfold leaseRun
  obtain ⟨⟨a1, answer⟩, taken, outcome⟩ :=
    takeRun_yields W (Nat.div_pos least (by omega)) (Nat.div_le_div_right most)
  refine .bind_ok taken ?_
  rcases outcome with ⟨refusal, rfl, refused⟩ | ⟨index, page, c, rfl, takes⟩
  · exact Checked.yields_pure.2 ⟨.inl ⟨refusal, rfl, refused⟩, .refused taken⟩
  have W1 := takes.wf
  have held := mem_of_getElem? takes.chunk
  have old := W1.chunks c held
  have inside := takes.fits
  have positive : 0 < size / a.config.pageSize := Nat.div_pos least (by omega)
  have lt : page < a.config.chunkPages := by omega
  have number : (UInt32.ofNat page).toNat = page :=
    UInt32.toNat_ofNat_of_lt' (Nat.lt_trans lt W.config.chunkPages_lt)
  have region := W.page_mul_le lt
  have chunk := W.config.chunkSize_le
  have word : Word.bound = 2 ^ 64 := rfl
  refine .bind_ok (chunkAt_ok takes.chunk) ?_
  simp only [Locator.page_run, number]
  have offset : c.pages.offset page = .ok (page * a.config.pageSize) := by
    rw [PageMap.offset, old.pageSize, takes.config]
    exact Word.mul_ok (by omega)
  have length : c.pages.runSize page = .ok size := by
    unfold PageMap.runSize
    rw [PageMap.runLength_eq old.pages (by rw [old.count, takes.config]; exact lt), Checked.ok_bind,
      takes.run, old.pageSize, takes.config, Word.mul_ok (by omega), exactly]
  refine .bind_ok offset (.bind_ok length (Checked.yields_pure.2 ?_))
  set l : Lease := ⟨c.chunk, .pooled (.run (.ofNat page)), page * a.config.pageSize, capacity, size⟩
    with el
  have location : l.location = .pooled (.run (.ofNat page)) := rfl
  have start : l.page = page := by rw [Lease.page_eq location, Locator.page_run, number]
  have backs : a1.Backs l := by
    refine .run held rfl location (Locator.slot?_run _) ?_ ?_ ?_ ?_
    · rw [Locator.page_run, number, takes.run]
      exact positive
    · rw [Locator.page_run, number]
      exact takes.plain
    · rw [Locator.page_run, number, takes.config]
    · rw [Locator.page_run, number, takes.run, takes.config, exactly]
  have adds : a.Adds l a1 := by
    refine ⟨.run (by rw [location]; nofun) ?_ ?_ (active?_congr takes.table), takes.grows,
      takes.tends, takes.returned⟩
    · rw [Lease.slot?_eq location, Locator.slot?_run]
      rfl
    · rw [start]
      exact takes.starts
  refine ⟨.inr ⟨l, rfl, ⟨W1, backs, takes.kept, fun k b => ?_, rfl, rfl, takes.config, takes.heap, adds⟩,
    by rw [location]; nofun, takes.active⟩, .granted taken takes.chunk rfl (Lease.page_eq location) rfl⟩
  refine backs.apart W1 (takes.kept k b) fun sameChunk => ⟨by rw [location]; nofun, ?_⟩
  rw [start]
  exact Ne.symm (takes.other k b sameChunk.symm)

/-- A request that gets a chunk of its own. -/
theorem leasePrivate_cases (W : a.Wf) :
    (∃ refusal, (a.leasePrivate capacity).2 = .error refusal ∧ a.Refused (a.leasePrivate capacity).1) ∨
      ∃ l, (a.leasePrivate capacity).2 = .ok l ∧ a.Cuts capacity capacity (a.leasePrivate capacity).1 l ∧
        l.location = .unpooled ∧ (a.leasePrivate capacity).1.activeLeases = a.activeLeases := by
  rcases a.heap.obtain?_cases capacity with ⟨heap, e, same⟩ | ⟨heap, e, grown, small⟩
  · have eq : a.leasePrivate capacity = ({ a with heap := heap }, .error (.outOfMemory capacity)) := by
      rw [leasePrivate, e]
    rw [eq]
    exact .inl ⟨_, rfl, heap, rfl, same⟩
  · set l : Lease := ⟨⟨a.nextChunkId, a.heap.blocks.size, capacity, true⟩, .unpooled, 0, capacity,
      capacity⟩ with el
    have eq : a.leasePrivate capacity =
        ({ a with heap := heap, nextChunkId := a.nextChunkId + 1 }, .ok l) := by
      rw [leasePrivate, e]
    rw [eq]
    have W1 := W.withMemory grown small
    have size := congrArg Array.size grown
    rw [Array.size_push] at size
    have fresh : ∀ k, a.Backs k → l.chunk.memory ≠ k.chunk.memory := fun k b =>
      Nat.ne_of_gt (b.fits W).2.1
    have adds : a.Adds l { a with heap := heap, nextChunkId := a.nextChunkId + 1 } :=
      ⟨.own rfl rfl rfl, ⟨Nat.le_succ _, fun d hd => .inl ⟨d, hd, rfl⟩, fun x s hs => ⟨s, hs, .refl s⟩,
        fun _ => rfl, rfl⟩, tends_of_chunks rfl rfl id, rfl⟩
    refine .inr ⟨l, rfl, ⟨W1, .own rfl rfl W.next ?_ ?_ (fun c hc => ?_) rfl rfl,
      fun k b => b.withMemory grown, fun k b => .inl (fresh k b), rfl, rfl, rfl,
      Heap.extends_of_push grown, adds⟩, rfl, rfl⟩
    · change a.heap.blocks.size < heap.blocks.size
      omega
    · change (heap.get a.heap.blocks.size).size = capacity
      rw [Heap.get_push grown, if_pos rfl]
    · exact Nat.ne_of_lt (W.chunks c hc).inside

theorem grant_slot {kind : Size.Class} (notHuge : kind ≠ .huge) (notNormal : kind ≠ .normal) :
    a.grant kind size capacity = a.leaseSlot size capacity := by
  cases kind <;> first | rfl | exact absurd rfl notHuge | exact absurd rfl notNormal

/-- A request is granted or refused. -/
theorem lease_yields (W : a.Wf) (capacity : Nat) : (a.lease capacity).Yields fun r =>
    (∃ refusal a', r.2 = .error refusal ∧ a.Refused a' ∧ r.1 = a'.count .failed) ∨
    ∃ l, r.2 = .ok l ∧ a.Grants capacity r.1 l ∧
      r.1.activeLeases = a.activeLeases + if l.location = .unpooled then 0 else 1 := by
  obtain ⟨kind, class_eq, numbered, cases⟩ := W.config.ofSize_rounded capacity
  have fits := le_rounded capacity a.config.chunkSize
  have granted : (a.grant kind (a.rounded capacity) capacity).Yields fun r =>
      (∃ refusal, r.2 = .error refusal ∧ a.Refused r.1) ∨
      ∃ l, r.2 = .ok l ∧ a.Grants capacity r.1 l ∧ (l.location = .unpooled ↔ kind = .huge) ∧
        r.1.activeLeases = a.activeLeases := by
    rcases cases with ⟨rfl, above, whole⟩ | ⟨rfl, least, most, pages⟩ | ⟨notHuge, notNormal, slot⟩
    · refine Checked.yields_ok.2 ((leasePrivate_cases W).imp (fun h => h) ?_)
      intro ⟨l, answer, cuts, location, active⟩
      refine ⟨l, answer, ⟨?_, iff_of_true location above⟩, iff_of_true location rfl, active⟩
      rw [rounded, chunkSize, whole]
      exact cuts
    · refine (leaseRun_yields W least most pages capacity).mono fun r h => h.1.imp (fun h => h) ?_
      intro ⟨l, answer, cuts, location, active⟩
      have below := Nat.not_lt.2 (Nat.le_trans fits most)
      exact ⟨l, answer, ⟨cuts, iff_of_false location below⟩, iff_of_false location nofun, active⟩
    · rw [grant_slot notHuge notNormal]
      refine (leaseSlot_yields W slot capacity).mono fun r h => h.1.imp (fun h => h) ?_
      intro ⟨l, answer, cuts, location, active⟩
      have page := Nat.le_of_lt (slot.lt W.config.le_pageSize)
      have below := Nat.not_lt.2 (Nat.le_trans fits (Nat.le_trans page W.config.pageSize_le))
      exact ⟨l, answer, ⟨cuts, iff_of_false location below⟩, iff_of_false location notHuge, active⟩
  unfold lease
  refine .bind_ok (classOf_ok class_eq numbered) (granted.bind ?_)
  intro ⟨a', answer⟩ outcome
  rcases outcome with ⟨refusal, rfl, refused⟩ | ⟨l, rfl, grants, location, active⟩
  · exact Checked.yields_pure.2 (.inl ⟨refusal, a', rfl, refused, rfl⟩)
  · refine Checked.yields_pure.2 (.inr ⟨l, rfl, ?_, ?_⟩)
    · have same : a'.SameBooks ((a'.countPooled kind).count (.leased kind)) := by
        unfold countPooled
        split <;> exact ⟨rfl, rfl, rfl, rfl, rfl, rfl, ⟨rfl, fun _ => rfl⟩⟩
      have heap : ((a'.countPooled kind).count (.leased kind)).heap = a'.heap := by
        unfold countPooled
        split <;> rfl
      have leases : a'.SameLeases ((a'.countPooled kind).count (.leased kind)) := by
        unfold countPooled
        cases kind <;> split <;> exact ⟨⟨rfl, rfl, rfl, rfl⟩, rfl⟩
      exact ⟨⟨same.wf grants.wf, same.backs grants.backs, fun k b => same.backs (grants.kept k b),
        grants.apart, grants.length, grants.region, same.config.trans grants.config,
        by rw [heap]; exact grants.heap, grants.adds.congr (.refl a) leases⟩, grants.unpooled⟩
    · change (a'.countPooled kind).activeLeases = _
      unfold countPooled
      by_cases huge : kind = .huge
      · rw [if_pos huge, if_pos (location.2 huge), active]
        rfl
      · rw [if_neg huge, if_neg fun h => huge (location.1 h), ← active]

end BufferPool.Arena
