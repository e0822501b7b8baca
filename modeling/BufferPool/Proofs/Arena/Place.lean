import BufferPool.Proofs.Arena.Lease
import BufferPool.Proofs.FirstFit

/-!
# Where leases are placed

A request for a slot is served from the first member of the list of its size. If the list is empty, and for
whole pages, neighbouring free pages are taken: the first ones of the first chunk that has enough of them
(`Arena.Spot`), in a new chunk only if none has, and the request is refused only if there may be no
further chunk (`Arena.Places`).
-/

namespace BufferPool.Arena

open Size PageMap

variable {a a' : Arena} {l : Lease} {c : PooledChunk} {length index page capacity size : Nat}

/-- Whether a page of the chunk at a position is in use. -/
def usesPage (a : Arena) (index page : Nat) : Bool := (a.chunks[index]?).any fun c => isUsed c.pages.used page

/-- No chunk has `length` neighbouring free pages. -/
def Crowded (a : Arena) (length : Nat) : Prop := ∀ c ∈ a.chunks, ∀ page, ¬ Room c.pages.used length page

/-- The chunk and its first page at which `length` pages are taken, and how many chunks there are then. -/
inductive Spot (a : Arena) (length : Nat) : (index page chunks : Nat) → Prop where
  /-- The first chunk that has such pages, and the first of them. -/
  | held {index page : Nat} {c : PooledChunk} (chunk : a.chunks[index]? = some c)
      (first : FirstRoom c.pages.used length page)
      (earlier : ∀ j < index, ∀ d, a.chunks[j]? = some d → ∀ q, ¬ Room d.pages.used length q) :
      Spot a length index page a.chunks.size
  /-- The start of a new chunk, if no chunk has such pages and there may be another chunk. -/
  | added (crowded : a.Crowded length)
      (more : a.config.maxChunks = 0 ∨ a.chunks.size < a.config.maxChunks) :
      Spot a length a.chunks.size 0 (a.chunks.size + 1)

/-- What taking `length` pages does: these pages are in use then as well, and no others. -/
structure TakesPages (a : Arena) (length index page : Nat) (a' : Arena) : Prop where
  spot : a.Spot length index page a'.chunks.size
  kept : ∀ j < a.chunks.size, a'.chunks[j]?.map PooledChunk.chunk = a.chunks[j]?.map PooledChunk.chunk
  used : ∀ j q, a'.usesPage j q = true ↔ a.usesPage j q = true ∨ j = index ∧ page ≤ q ∧ q < page + length

/-- A request takes pages: one for a slot whose list is empty, or those of a run. -/
inductive Needs (a : Arena) (capacity : Nat) : (length : Nat) → Prop where
  | slot {head : SubpageId} (list : a.listHead? (a.rounded capacity) = .ok (some head))
      (empty : a.table.Ring head []) : Needs a capacity 1
  | run (list : a.listHead? (a.rounded capacity) = .ok none) :
      Needs a capacity (a.rounded capacity / a.config.pageSize)

/-- How a request of at most a chunk is answered. -/
inductive Places (a : Arena) (capacity : Nat) (a' : Arena) : Answered (Option Lease) → Prop where
  /-- A free slot of the first member of the list, with no page taken. -/
  | listed {head front : SubpageId} {rest : List SubpageId} {s : Subpage} {l : Lease} {k : Nat}
      (list : a.listHead? (a.rounded capacity) = .ok (some head))
      (ring : a.table.Ring head (front :: rest)) (named : a.table.get? front = some s)
      (chunk : l.chunk.id = s.chunk) (page : l.page = s.page.toNat) (slot : l.slot? = some k)
      (free : s.slotSize ≠ 0 → ¬ s.Lends k) (chunks : a'.chunks = a.chunks) : Places a capacity a' (.ok (some l))
  /-- The pages that are taken for it. -/
  | paged {length index page : Nat} {c : PooledChunk} {l : Lease} (needs : a.Needs capacity length)
      (takes : a.TakesPages length index page a') (held : a'.chunks[index]? = some c)
      (chunk : l.chunk.id = c.chunk.id) (start : l.page = page) : Places a capacity a' (.ok (some l))
  /-- Refused, for want of pages in the chunks and of room for a further chunk. -/
  | exhausted {length : Nat} (needs : a.Needs capacity length) (crowded : a.Crowded length)
      (full : a.config.maxChunks ≠ 0 ∧ a.config.maxChunks ≤ a.chunks.size) (chunks : a'.chunks = a.chunks) :
      Places a capacity a' (.error (.exhausted a.chunks.size a.chunkSize))

/-! ## Pages -/

theorem usesPage_eq : a.usesPage index page = (a.marks[index]?).any fun m => isUsed m.2 page := by
  simp [usesPage, marks, Option.any_map]

theorem chunk_of_marks {a₁ : Arena} (marks : a'.marks = a₁.marks) (j : Nat) :
    a'.chunks[j]?.map PooledChunk.chunk = a₁.chunks[j]?.map PooledChunk.chunk := by
  have same : a'.marks[j]?.map Prod.fst = a₁.marks[j]?.map Prod.fst := by rw [marks]
  simp only [Arena.marks, Array.getElem?_map, Option.map_map] at same
  exact same

/-- Only the marks of the pages count. -/
theorem TakesPages.congr {a₁ : Arena} (h : a.TakesPages length index page a₁) (marks : a'.marks = a₁.marks) :
    a.TakesPages length index page a' := by
  have size : a'.chunks.size = a₁.chunks.size := by
    simpa [Arena.marks] using congrArg Array.size marks
  refine ⟨size ▸ h.spot, fun j inside => (chunk_of_marks marks j).trans (h.kept j inside), fun j q => ?_⟩
  rw [usesPage_eq, marks, ← usesPage_eq]
  exact h.used j q

/-- Only the chunks count. -/
theorem Places.congr {a₁ : Arena} {answer : Answered (Option Lease)} (h : a.Places capacity a₁ answer)
    (chunks : a'.chunks = a₁.chunks) : a.Places capacity a' answer := by
  cases h with
  | listed list ring named chunk page slot free same =>
    exact .listed list ring named chunk page slot free (chunks.trans same)
  | paged needs takes held chunk start =>
    exact .paged needs (takes.congr (by rw [marks, marks, chunks])) (by rwa [chunks]) chunk start
  | exhausted needs crowded full same => exact .exhausted needs crowded full (chunks.trans same)

/-- Of a row of chunks the first one with room is found, or there is none. -/
theorem firstRun?_cases (positive : 0 < length) : ∀ {chunks : List PooledChunk} (start : Nat),
    (∀ c ∈ chunks, c.pages.Wf) →
    (∃ j c page m, firstRun? length chunks start = some (start + j, m, .run (.ofNat page)) ∧
      chunks[j]? = some c ∧ FirstRoom c.pages.used length page ∧ c.pages.Takes length page m ∧
      ∀ i < j, ∀ d, chunks[i]? = some d → ∀ q, ¬ Room d.pages.used length q) ∨
    firstRun? length chunks start = none ∧ ∀ c ∈ chunks, ∀ q, ¬ Room c.pages.used length q
  | [], _, _ => .inr ⟨rfl, nofun⟩
  | c :: rest, start, wf => by
    have wfs := List.forall_mem_cons.1 wf
    rw [firstRun?]
    rcases takeRun?_cases wfs.1 positive with ⟨page, m, taken, first, takes⟩ | ⟨none, crowded⟩
    · rw [taken]
      exact .inl ⟨0, c, page, m, rfl, rfl, first, takes, fun i before => absurd before (Nat.not_lt_zero i)⟩
    · rw [none]
      rcases firstRun?_cases positive (start + 1) wfs.2 with
        ⟨j, d, page, m, found, hd, first, takes, earlier⟩ | ⟨none, others⟩
      · refine .inl ⟨j + 1, d, page, m, ?_, hd, first, takes, fun i before e he => ?_⟩
        · rw [found, Nat.add_right_comm, Nat.add_assoc]
        · cases i with
          | zero =>
            cases he
            exact crowded
          | succ i => exact earlier i (Nat.lt_of_succ_lt_succ before) e he
      · exact .inr ⟨none, List.forall_mem_cons.2 ⟨crowded, others⟩⟩

/-- Pages of a chunk that is held. -/
theorem takesPages_withPages (W : a.Wf) {m : PageMap} (hi : a.chunks[index]? = some c)
    (spot : a.Spot length index page a.chunks.size) (takes : c.pages.Takes length page m) :
    a.TakesPages length index page (a.withPages index m) := by
  have wf := (W.chunks c (mem_of_getElem? hi)).pages
  refine ⟨by rwa [size_withPages], fun j _ => ?_, fun j q => ?_⟩
  · rw [getElem?_withPages]
    split
    · rw [Option.map_map]
      rfl
    · rfl
  · unfold usesPage
    rw [getElem?_withPages]
    by_cases here : index = j
    · subst here
      simp only [if_pos, hi, Option.map_some, Option.any_some, takes.isUsed_iff wf, true_and]
    · rw [if_neg here]
      simp [Ne.symm here]

/-- Pages of a new chunk. -/
theorem takesPages_withChunk (crowded : a.Crowded length)
    (more : a.config.maxChunks = 0 ∨ a.chunks.size < a.config.maxChunks)
    (chunks : a'.chunks = a.chunks.push c) (used : ∀ q, isUsed c.pages.used q = true ↔ q < length) :
    a.TakesPages length a.chunks.size 0 a' := by
  refine ⟨?_, fun j inside => ?_, fun j q => ?_⟩
  · rw [chunks, Array.size_push]
    exact .added crowded more
  · rw [chunks, Array.getElem?_push, if_neg (Nat.ne_of_lt inside)]
  · unfold usesPage
    rw [chunks, Array.getElem?_push]
    by_cases last : j = a.chunks.size
    · simp [last, used]
    · simp [last]

/-- Pages are taken where there are some first, or there are none, and there may be no further chunk. -/
theorem takeRun_places (W : a.Wf) (positive : 0 < length) (fits : length ≤ a.config.chunkPages)
    (supplied : a.heap.refuses a.heap.attempts a.chunkSize = false) : (a.takeRun length).Yields fun r =>
      (∃ index run, r.2 = .ok (index, run) ∧ a.TakesPages length index run.page.toNat r.1) ∨
      r.2 = .error (.exhausted a.chunks.size a.chunkSize) ∧ r.1.chunks = a.chunks ∧ a.Crowded length ∧
        a.config.maxChunks ≠ 0 ∧ a.config.maxChunks ≤ a.chunks.size := by
  unfold takeRun
  rcases firstRun?_cases positive 0 fun c hc => (W.chunks c (Array.mem_toList_iff.1 hc)).pages with
    ⟨j, c, page, m, found, hc, first, takes, earlier⟩ | ⟨none, crowded⟩
  · rw [Nat.zero_add] at found
    rw [found]
    simp only [Array.getElem?_toList] at hc earlier
    have number : (Locator.run (.ofNat page)).page.toNat = page := by
      have count := (W.chunks c (mem_of_getElem? hc)).count
      have fits := takes.fits
      have := takes.positive
      rw [Locator.page_run]
      exact UInt32.toNat_ofNat_of_lt' (Nat.lt_trans (by omega) W.config.chunkPages_lt)
    refine Checked.yields_ok.2 (.inl ⟨j, _, rfl, ?_⟩)
    rw [number]
    exact takesPages_withPages W hc (.held hc first earlier) takes
  · rw [none]
    have crowded : a.Crowded length := fun c hc => crowded c (Array.mem_toList_iff.2 hc)
    unfold growTakingRun
    by_cases full : a.isFull = true
    · rw [if_pos full]
      simp only [isFull, Bool.and_eq_true, bne_iff_ne, decide_eq_true_eq] at full
      exact Checked.yields_ok.2 (.inr ⟨rfl, rfl, crowded, full⟩)
    · have more : a.config.maxChunks = 0 ∨ a.chunks.size < a.config.maxChunks := by
        simp only [isFull, Bool.and_eq_true, bne_iff_ne, decide_eq_true_eq, not_and_or, not_not,
          Nat.not_le] at full
        exact full
      have small : a.chunkSize < Memory.limit :=
        Nat.lt_of_le_of_lt W.config.chunkSize_le (by decide)
      obtain ⟨heap, obtained⟩ := Heap.obtain?_of_supplied supplied small
      have blank := wf_ofPages a.config.chunkPages a.config.pageSize
      obtain ⟨m, hm⟩ := takeRun?_of_blank blank (run_ofPages _ _) positive
        (by rw [count_ofPages]; exact fits)
      have hm' : (ofPages (a.chunkSize / a.config.pageSize) a.config.pageSize).takeRun? length =
        some (m, .run 0) := hm
      rw [if_neg full, obtained]
      simp only [hm']
      refine Checked.yields_ok.2 (.inl ⟨_, .run 0, rfl, ?_⟩)
      rw [Locator.page_run]
      refine takesPages_withChunk crowded more rfl fun q => ?_
      -- Nothing is in use in a new chunk, so the pages taken are its first ones.
      rcases takeRun?_cases blank positive with ⟨page, m', taken, first, takes⟩ | ⟨none, -⟩
      · have same : m = m' := (Prod.mk.inj (Option.some.inj (hm.symm.trans taken))).1
        have start : page = 0 := by
          by_contra later
          exact first.least 0 (by omega)
            ⟨by rw [Nat.zero_add]; simpa [ofPages] using fits, fun k _ => isUsed_ofPages ..⟩
        subst start same
        simp [takes.isUsed_iff blank]
      · rw [hm] at none
        cases none

/-! ## Requests -/

/-- A list that is not empty has its first member at the front, and an empty one has no front. -/
theorem Wf.ring_of_front? (W : a.Wf) {head : SubpageId} {front : Option SubpageId} (hh : a.table.IsHead head)
    (h : a.table.front? head = .ok front) : ∃ ids, a.table.Ring head ids ∧ ids.head? = front := by
  obtain ⟨lists, L, -⟩ := W.table.listed
  have ring := L.ring head hh
  rw [ring.front?_eq] at h
  exact ⟨_, ring, Except.ok.inj h⟩

/-- A request that takes pages is answered by the pages. -/
theorem FromRun.places (W : a.Wf) {answer : Answered Lease} (h : a.FromRun length a' answer)
    (needs : a.Needs capacity length) (positive : 0 < length) (fits : length ≤ a.config.chunkPages)
    (supplied : a.heap.refuses a.heap.attempts a.chunkSize = false) :
    a.Places capacity a' (answer.map some) := by
  obtain ⟨⟨a₁, taken⟩, eq, outcome⟩ := takeRun_places W positive fits supplied
  cases h with
  | refused run =>
    cases eq.symm.trans run
    rcases outcome with ⟨index, run, answer, -⟩ | ⟨answer, chunks, crowded, full⟩
    · cases answer
    · cases answer
      exact .exhausted needs crowded full chunks
  | @granted a₁ index run c l taken chunk on starts marks =>
    cases eq.symm.trans taken
    rcases outcome with ⟨index', run', answer, takes⟩ | ⟨answer, -⟩
    · cases answer
      have held := (chunk_of_marks marks index).trans (congrArg _ chunk)
      obtain ⟨c', hc', same⟩ := Option.map_eq_some_iff.1 held
      exact .paged needs (takes.congr marks) hc' (on.trans (congrArg Chunk.id same.symm)) starts
    · cases answer

/-- A request for a slot is answered by the list of its size, or by a page. -/
theorem FromSlots.places (W : a.Wf) {answer : Answered Lease} (h : a.FromSlots (a.rounded capacity) a' answer)
    (slot : IsSlot a.config.pageSize (a.rounded capacity))
    (supplied : a.heap.refuses a.heap.attempts a.chunkSize = false) :
    a.Places capacity a' (answer.map some) := by
  have list := W.listHead?_slot slot
  cases h with
  | listed front named takes chunks =>
    obtain ⟨ids, ring, first⟩ := W.ring_of_front? (W.isHead slot) front
    obtain ⟨rest, rfl⟩ := List.head?_eq_some_iff.1 first
    obtain ⟨k, s', place, leases, -⟩ := takes.taken
    exact .listed list ring named takes.bears.chunk.symm takes.bears.page.symm place leases.fresh chunks
  | fresh front run =>
    obtain ⟨ids, ring, none⟩ := W.ring_of_front? (W.isHead slot) front
    cases List.head?_eq_none_iff.1 none
    exact run.places W (.slot list ring) Nat.one_pos W.config.chunkPages_pos supplied

/-- Whatever fits a chunk is placed. -/
theorem lease_places (W : a.Wf) (within : capacity ≤ a.config.chunkSize)
    (supplied : a.heap.refuses a.heap.attempts a.chunkSize = false) :
    (a.lease capacity).Yields fun r => a.Places capacity r.1 (r.2.map some) := by
  obtain ⟨kind, class_eq, numbered, cases⟩ := W.config.ofSize_rounded capacity
  have notHuge : kind ≠ .huge := by
    rintro rfl
    rcases cases with ⟨-, above, -⟩ | ⟨kind, -⟩ | ⟨other, -⟩
    · omega
    · cases kind
    · exact other rfl
  have class_ok := classOf_ok class_eq numbered
  have granted : (a.grant kind (a.rounded capacity) capacity).Yields fun r =>
      a.Places capacity r.1 (r.2.map some) := by
    rcases cases with ⟨huge, -⟩ | ⟨rfl, least, most, pages⟩ | ⟨notHuge, notNormal, slot⟩
    · exact absurd huge notHuge
    · have list : a.listHead? (a.rounded capacity) = .ok none := by
        rw [listHead?, rounded, chunkSize, class_ok]
        rfl
      have page := W.config.le_pageSize
      apply (leaseRun_yields W least most pages capacity).mono
      intro r outcome
      exact outcome.2.places W (.run list) (Nat.div_pos least (by omega)) (Nat.div_le_div_right most) supplied
    · rw [grant_slot notHuge notNormal]
      apply (leaseSlot_yields W slot capacity).mono
      intro r outcome
      exact outcome.2.places W slot supplied
  unfold lease
  refine .bind_ok class_ok (granted.bind ?_)
  rintro ⟨a', answer⟩ places
  cases answer with
  | error refusal => exact Checked.yields_pure.2 (places.congr rfl)
  | ok l =>
    have chunks : ((a'.countPooled kind).count (.leased kind)).chunks = a'.chunks := by
      rw [countPooled, if_neg notHuge]
      rfl
    exact Checked.yields_pure.2 (places.congr chunks)

end BufferPool.Arena
