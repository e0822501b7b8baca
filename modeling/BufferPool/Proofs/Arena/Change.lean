import BufferPool.Proofs.Arena.Basic

/-!
# Changes of the arena

Each operation of the arena is made of a few changes: the pages of one chunk, the subpage of one
identifier, a chunk more, a memory more. Every change has one statement here that the arena stays well
formed, and one about the leases that the bookkeeping still accounts for.
-/

namespace BufferPool

namespace Arena

open Size

variable {a a' : Arena} {l : Lease} {c d : PooledChunk} {i : Nat} {m : PageMap} {id : SubpageId}
  {s s' : Subpage} {t : SubpageTable} {heap : Heap}

/-! ## Contents and counts -/

/-- Two arenas that differ at most in counts and in the contents of their memories. -/
structure SameBooks (a a' : Arena) : Prop where
  config : a'.config = a.config
  table : a'.table = a.table
  tinyHeads : a'.tinyHeads = a.tinyHeads
  smallHeads : a'.smallHeads = a.smallHeads
  chunks : a'.chunks = a.chunks
  nextChunkId : a'.nextChunkId = a.nextChunkId
  heap : a.heap.SameShape a'.heap

theorem sameBooks_count (a : Arena) (event : Event) : a.SameBooks (a.count event) :=
  ⟨rfl, rfl, rfl, rfl, rfl, rfl, ⟨rfl, fun _ => rfl⟩⟩

theorem SameBooks.wf (h : a.SameBooks a') (W : a.Wf) : a'.Wf where
  config := by rw [h.config]; exact W.config
  tiny := by rw [h.tinyHeads]; exact W.tiny
  small := by rw [h.config, h.smallHeads]; exact W.small
  heads := by rw [h.config, h.table]; exact W.heads
  table := by rw [h.table]; exact W.table
  subpages := by rw [h.config, h.table]; exact W.subpages
  chunks := by
    rw [h.config, h.table, h.chunks]
    intro c hc
    have wf := W.chunks c hc
    exact ⟨wf.size, wf.pooled, wf.named, by rw [h.heap.size]; exact wf.inside,
      by rw [h.heap.memory]; exact wf.memory, wf.pages, wf.count, wf.pageSize, wf.carved⟩
  distinct := by rw [h.chunks]; exact W.distinct
  recorded := by rw [h.table, h.chunks]; exact W.recorded
  next := by rw [h.nextChunkId, h.heap.size]; exact W.next
  bounded := W.bounded.sameShape h.heap

theorem SameBooks.backs (h : a.SameBooks a') (b : a.Backs l) : a'.Backs l := by
  cases b with
  | run held chunk location whole starts plain offset size =>
    exact .run (by rw [h.chunks]; exact held) chunk location whole starts
      (by rw [h.table]; exact plain) (by rw [h.config]; exact offset) (by rw [h.config]; exact size)
  | slot held chunk location part carved named active lent offset size =>
    exact .slot (by rw [h.chunks]; exact held) chunk location part carved
      (by rw [h.table]; exact named) active lent (by rw [h.config]; exact offset) size
  | own location unpooled named inside memory apart offset size =>
    exact .own location unpooled named (by rw [h.heap.size]; exact inside)
      (by rw [h.heap.memory]; exact memory) (by rw [h.chunks]; exact apart) offset size

/-! ## The pages of one chunk -/

theorem getElem?_withPages (j : Nat) : (a.withPages i m).chunks[j]? =
    if i = j then a.chunks[j]?.map fun c => { c with pages := m } else a.chunks[j]? := by
  rw [withPages, Array.getElem?_modify]

theorem mem_withPages (W : a.Wf) (hi : a.chunks[i]? = some c) :
    d ∈ (a.withPages i m).chunks ↔
      d = { c with pages := m } ∨ d ∈ a.chunks ∧ d.chunk.id ≠ c.chunk.id := by
  constructor
  · intro hd
    obtain ⟨j, hj⟩ := Array.mem_iff_getElem?.1 hd
    rw [getElem?_withPages] at hj
    split at hj
    · rename_i same
      rw [← same, hi] at hj
      exact .inl (Option.some.inj hj).symm
    · rename_i other
      refine .inr ⟨mem_of_getElem? hj, fun e => other ?_⟩
      exact (W.distinct j i d c hj hi e).symm
  · intro outcome
    rcases outcome with rfl | ⟨hd, ne⟩
    · refine Array.mem_iff_getElem?.2 ⟨i, ?_⟩
      rw [getElem?_withPages, if_pos rfl, hi]
      rfl
    · obtain ⟨j, hj⟩ := Array.mem_iff_getElem?.1 hd
      refine Array.mem_iff_getElem?.2 ⟨j, ?_⟩
      rw [getElem?_withPages, if_neg, hj]
      intro equal
      subst equal
      rw [hi] at hj
      exact ne (congrArg (fun c => c.chunk.id) (Option.some.inj hj)).symm

/-- Chunks keep their numbers when pages change. -/
theorem distinct_withPages (W : a.Wf) (j k : Nat) (c d : PooledChunk)
    (hj : (a.withPages i m).chunks[j]? = some c) (hk : (a.withPages i m).chunks[k]? = some d)
    (e : c.chunk.id = d.chunk.id) : j = k := by
  have back : ∀ {j : Nat} {c : PooledChunk}, (a.withPages i m).chunks[j]? = some c →
      ∃ c', a.chunks[j]? = some c' ∧ c'.chunk = c.chunk := by
    intro j c h
    rw [getElem?_withPages] at h
    split at h
    · obtain ⟨c', hc', rfl⟩ := Option.map_eq_some_iff.1 h
      exact ⟨c', hc', rfl⟩
    · exact ⟨c, h, rfl⟩
  obtain ⟨c', hc', sc⟩ := back hj
  obtain ⟨d', hd', sd⟩ := back hk
  exact W.distinct j k c' d' hc' hd' (by rw [sc, sd, e])

/-- The runs of one chunk change, those under carved pages excepted. -/
theorem Wf.withPages (W : a.Wf) (hi : a.chunks[i]? = some c) (same : c.pages.SamePages m)
    (wf : m.Wf) (kept : ∀ page id s, c.pages.carved[page]? = some (some id) →
      a.table.get? id = some s → s.active = true → m.run page = 1) : (a.withPages i m).Wf where
  config := W.config
  tiny := W.tiny
  small := W.small
  heads := W.heads
  table := W.table
  subpages := W.subpages
  chunks d hd := by
    rcases (mem_withPages W hi).1 hd with rfl | ⟨old, -⟩
    · have old := W.chunks c (mem_of_getElem? hi)
      refine ⟨old.size, old.pooled, old.named, old.inside, old.memory, wf, same.count.trans old.count,
        same.pageSize.trans old.pageSize, fun page id carved => ?_⟩
      rw [same.carved] at carved
      obtain ⟨s, hs, chunk, page', -⟩ := old.carved page id carved
      exact ⟨s, hs, chunk, page', kept page id s carved hs⟩
    · exact W.chunks d old
  distinct := distinct_withPages W
  recorded x s hs := by
    obtain ⟨d, hd, chunk, carved⟩ := W.recorded x s hs
    by_cases e : d.chunk.id = c.chunk.id
    · have dc := W.eq_of_id hd (mem_of_getElem? hi) e
      subst dc
      exact ⟨_, (mem_withPages W hi).2 (.inl rfl), chunk, by rw [same.carved]; exact carved⟩
    · exact ⟨d, (mem_withPages W hi).2 (.inr ⟨hd, e⟩), chunk, carved⟩
  next := W.next
  bounded := W.bounded

theorem Backs.withPages (W : a.Wf) (b : a.Backs l) (hi : a.chunks[i]? = some c)
    (same : c.pages.SamePages m)
    (kept : l.chunk = c.chunk → l.location ≠ .unpooled → m.run l.page = c.pages.run l.page) :
    (a.withPages i m).Backs l := by
  have held' := mem_of_getElem? hi
  cases b with
  | @run d r held chunk location whole starts plain offset size =>
    have page := Lease.page_eq location
    by_cases e : d.chunk.id = c.chunk.id
    · have dc := W.eq_of_id held held' e
      subst dc
      have run : m.run r.page.toNat = d.pages.run r.page.toNat := by
        rw [← page]
        exact kept chunk (by rw [location]; nofun)
      exact .run ((mem_withPages W hi).2 (.inl rfl)) chunk location whole (by rw [run]; exact starts)
        (by rw [same.carved]; exact plain) offset (by rw [run]; exact size)
    · exact .run ((mem_withPages W hi).2 (.inr ⟨held, e⟩)) chunk location whole starts plain offset size
  | @slot d r k id s held chunk location part carved named active lent offset size =>
    by_cases e : d.chunk.id = c.chunk.id
    · have dc := W.eq_of_id held held' e
      subst dc
      exact .slot ((mem_withPages W hi).2 (.inl rfl)) chunk location part
        (by rw [same.carved]; exact carved) named active lent offset size
    · exact .slot ((mem_withPages W hi).2 (.inr ⟨held, e⟩)) chunk location part carved named active lent
        offset size
  | own location unpooled named inside memory apart offset size =>
    refine .own location unpooled named inside memory (fun d hd => ?_) offset size
    rcases (mem_withPages W hi).1 hd with rfl | ⟨old, -⟩
    · exact apart c held'
    · exact apart d old

/-! ## The subpage of one identifier -/

/-- A subpage changes on its page. -/
theorem Wf.withTable (W : a.Wf) (hs : a.table.get? id = some s)
    (r : a.table.Replaces id (some s') t) (wf : t.Wf headOf) (same : s.SamePage s')
    (active : s'.active = true → IsSlot a.config.pageSize s'.slotSize ∧
      ∀ c ∈ a.chunks, c.chunk.id = s.chunk → c.pages.run s.page.toNat = 1) :
    { a with table := t }.Wf where
  config := W.config
  tiny := W.tiny
  small := W.small
  heads i hi := (r.heads _).2 (W.heads i hi)
  table := wf
  subpages x u hu := by
    rw [r.get?] at hu
    split at hu
    · cases hu
      obtain ⟨size, offset, -⟩ := W.subpages id s hs
      rw [same.pageSize, same.offset, same.page]
      exact ⟨size, offset, fun h => (active h).1⟩
    · exact W.subpages x u hu
  chunks d hd := by
    have old := W.chunks d hd
    refine { old with carved := fun page x carved => ?_ }
    obtain ⟨u, hu, chunk, page', one⟩ := old.carved page x carved
    rw [r.get?]
    split
    · rename_i e
      rw [e, hs] at hu
      cases hu
      refine ⟨s', rfl, same.chunk.trans chunk, by rw [same.page]; exact page', fun h => ?_⟩
      rw [← page']
      exact (active h).2 d hd chunk.symm
    · exact ⟨u, hu, chunk, page', one⟩
  distinct := W.distinct
  recorded x u hu := by
    rw [r.get?] at hu
    split at hu
    · rename_i e
      cases hu
      rw [same.chunk, same.page, e]
      exact W.recorded id s hs
    · exact W.recorded x u hu
  next := W.next
  bounded := W.bounded

theorem Backs.withTable (W : a.Wf) (b : a.Backs l) (hs : a.table.get? id = some s)
    (r : a.table.Replaces id (some s') t)
    (slots : s.active = true → l.chunk.id = s.chunk → l.page = s.page.toNat →
      ∀ k, l.slot? = some k → s.Lends k →
      s'.active = true ∧ s'.slotSize = s.slotSize ∧ s'.Lends k)
    (runs : s.active = false → l.chunk.id = s.chunk → l.page = s.page.toNat →
      l.location ≠ .unpooled → s'.active = false) :
    { a with table := t }.Backs l := by
  cases b with
  | @run d r' held chunk location whole starts plain offset size =>
    refine .run held chunk location whole starts (fun x u carved hu => ?_) offset size
    rw [r.get?] at hu
    split at hu
    · rename_i e
      cases hu
      subst e
      obtain ⟨chunk', page, -⟩ := W.of_carved held carved hs
      exact runs (plain x s carved hs) (by rw [chunk, chunk'])
        ((Lease.page_eq location).trans page.symm) (by rw [location]; nofun)
    · exact plain x u carved hu
  | @slot d r' k x u held chunk location part carved named active lent offset size =>
    obtain ⟨chunk', page, -⟩ := W.of_carved held carved named
    by_cases e : x = id
    · subst e
      rw [hs] at named
      cases named
      obtain ⟨active', slotSize, lent'⟩ := slots active (by rw [chunk, chunk'])
        ((Lease.page_eq location).trans page.symm) k.toNat
        (by rw [Lease.slot?_eq location, part]; rfl) lent
      exact .slot held chunk location part carved (by rw [r.get?, if_pos rfl]) active' lent'
        (by rw [slotSize]; exact offset) (by rw [slotSize]; exact size)
    · exact .slot held chunk location part carved (by rw [r.get?, if_neg e]; exact named) active lent
        offset size
  | own location unpooled named inside memory apart offset size =>
    exact .own location unpooled named inside memory apart offset size

/-- A page that was never carved gets a subpage. -/
theorem Wf.withSubpage (W : a.Wf) {page : Nat} (hi : a.chunks[i]? = some c)
    (blank : c.pages.carved[page]? = some none) (fresh : a.table.get? id = none)
    (r : a.table.Replaces id (some s) t) (wf : t.Wf headOf) (chunk : s.chunk = c.chunk.id)
    (number : s.page.toNat = page) (size : s.pageSize = a.config.pageSize)
    (offset : s.offset = page * a.config.pageSize) (idle : s.active = false) :
    ({ a with table := t }.withPages i
      { c.pages with carved := c.pages.carved.setIfInBounds page (some id) }).Wf := by
  set m : PageMap := { c.pages with carved := c.pages.carved.setIfInBounds page (some id) } with em
  have held := mem_of_getElem? hi
  have table : ({ a with table := t }.withPages i m).table = t := rfl
  have inside : page < c.pages.carved.size := by
    by_contra beyond
    rw [Array.getElem?_eq_none (Nat.le_of_not_lt beyond)] at blank
    cases blank
  have mem : ∀ d, d ∈ ({ a with table := t }.withPages i m).chunks ↔
      d = { c with pages := m } ∨ d ∈ a.chunks ∧ d.chunk.id ≠ c.chunk.id := fun _ =>
    mem_withPages (a := a) W hi
  have carved : ∀ q : Nat, m.carved[q]? = if page = q then some (some id) else c.pages.carved[q]? := by
    intro q
    rw [em, Array.getElem?_setIfInBounds]
    simp [inside]
  have older : ∀ x u, a.table.get? x = some u → t.get? x = some u := by
    intro x u hu
    rw [r.get?, if_neg]
    · exact hu
    · intro equal
      subst equal
      rw [fresh] at hu
      cases hu
  have old := W.chunks c held
  refine ⟨W.config, W.tiny, W.small, fun i hi => (r.heads _).2 (W.heads i hi), wf, fun x u hu => ?_,
    fun d hd => ?_, distinct_withPages (a := a) W, fun x u hu => ?_, W.next, W.bounded⟩
  · rw [table, r.get?] at hu
    split at hu
    · cases hu
      exact ⟨size, by rw [number]; exact offset, fun active => by rw [idle] at active; cases active⟩
    · exact W.subpages x u hu
  · rcases (mem d).1 hd with rfl | ⟨held', -⟩
    · refine ⟨old.size, old.pooled, old.named, old.inside, old.memory, ?_, old.count, old.pageSize,
        fun q x hx => ?_⟩
      · have pages := old.pages
        exact ⟨pages.runs_size, by rw [em, Array.size_setIfInBounds]; exact pages.carved_size, pages.fits,
          pages.covered, pages.apart, pages.account⟩
      · rw [carved] at hx
        split at hx
        · rename_i here
          cases hx
          refine ⟨s, by rw [table, r.get?,
            if_pos rfl], chunk, number.trans here, fun active => ?_⟩
          rw [idle] at active
          cases active
        · obtain ⟨u, hu, rest⟩ := old.carved q x hx
          exact ⟨u, older x u hu, rest⟩
    · have old := W.chunks d held'
      refine { old with carved := fun q x hx => ?_ }
      obtain ⟨u, hu, rest⟩ := old.carved q x hx
      exact ⟨u, older x u hu, rest⟩
  · rw [table, r.get?] at hu
    split at hu
    · rename_i e
      cases hu
      refine ⟨_, (mem _).2 (.inl rfl), chunk.symm, ?_⟩
      rw [carved, if_pos number.symm, e]
    · obtain ⟨d, hd, same, at_page⟩ := W.recorded x u hu
      by_cases e : d.chunk.id = c.chunk.id
      · have dc := W.eq_of_id hd held e
        subst dc
        refine ⟨_, (mem _).2 (.inl rfl), same, ?_⟩
        rw [carved, if_neg]
        · exact at_page
        · intro here
          rw [← here, blank] at at_page
          cases at_page
      · exact ⟨d, (mem d).2 (.inr ⟨hd, e⟩), same, at_page⟩

theorem Backs.withSubpage (W : a.Wf) (b : a.Backs l) {page : Nat} (hi : a.chunks[i]? = some c)
    (blank : c.pages.carved[page]? = some none) (fresh : a.table.get? id = none)
    (r : a.table.Replaces id (some s) t) (idle : s.active = false) :
    ({ a with table := t }.withPages i
      { c.pages with carved := c.pages.carved.setIfInBounds page (some id) }).Backs l := by
  set m : PageMap := { c.pages with carved := c.pages.carved.setIfInBounds page (some id) } with em
  have held' := mem_of_getElem? hi
  have mem : ∀ d, d ∈ ({ a with table := t }.withPages i m).chunks ↔
      d = { c with pages := m } ∨ d ∈ a.chunks ∧ d.chunk.id ≠ c.chunk.id := fun _ =>
    mem_withPages (a := a) W hi
  have table : ({ a with table := t }.withPages i m).table = t := rfl
  cases b with
  | @run d r' held chunk location whole starts plain offset size =>
    have plain' : ∀ x u, d.pages.carved[r'.page.toNat]? = some (some x) → t.get? x = some u →
        u.active = false := by
      intro x u hx hu
      rw [r.get?] at hu
      split at hu
      · cases hu
        exact idle
      · exact plain x u hx hu
    by_cases e : d.chunk.id = c.chunk.id
    · have dc := W.eq_of_id held held' e
      subst dc
      refine .run ((mem _).2 (.inl rfl)) chunk location whole starts (fun x u hx hu => ?_) offset size
      rw [em, Array.getElem?_setIfInBounds] at hx
      split at hx
      · split at hx
        · cases hx
          rw [table, r.get?, if_pos rfl] at hu
          cases hu
          exact idle
        · cases hx
      · exact plain' x u hx hu
    · exact .run ((mem d).2 (.inr ⟨held, e⟩)) chunk location whole starts plain' offset size
  | @slot d r' k x u held chunk location part carved named active lent offset size =>
    have named' : t.get? x = some u := by
      rw [r.get?, if_neg]
      · exact named
      · intro equal
        subst equal
        rw [fresh] at named
        cases named
    by_cases e : d.chunk.id = c.chunk.id
    · have dc := W.eq_of_id held held' e
      subst dc
      refine .slot ((mem _).2 (.inl rfl)) chunk location part ?_ named' active lent offset size
      rw [em, Array.getElem?_setIfInBounds, if_neg]
      · exact carved
      · intro here
        rw [← here, blank] at carved
        cases carved
    · exact .slot ((mem d).2 (.inr ⟨held, e⟩)) chunk location part carved named' active lent offset size
  | own location unpooled named inside memory apart offset size =>
    refine .own location unpooled named inside memory (fun d hd => ?_) offset size
    rcases (mem d).1 hd with rfl | ⟨old, -⟩
    · exact apart c held'
    · exact apart d old

/-! ## Memories and chunks -/

/-- The heap gets one more memory, and the next chunk another number. -/
theorem Wf.withMemory (W : a.Wf) {size : Nat} (e : heap.blocks = a.heap.blocks.push ⟨size, .empty⟩)
    (fits : size < Memory.limit) :
    { a with heap := heap, nextChunkId := a.nextChunkId + 1 }.Wf where
  config := W.config
  tiny := W.tiny
  small := W.small
  heads := W.heads
  table := W.table
  subpages := W.subpages
  chunks c hc := by
    have old := W.chunks c hc
    have grown := Heap.extends_of_push e
    exact { old with
      inside := Nat.lt_of_lt_of_le old.inside grown.size
      memory := by rw [grown.get _ old.inside]; exact old.memory }
  distinct := W.distinct
  recorded := W.recorded
  next := by
    have size := congrArg Array.size e
    rw [Array.size_push] at size
    change a.nextChunkId + 1 = heap.blocks.size + 1
    rw [W.next, size]
  bounded := W.bounded.push e fits

theorem Backs.withMemory (b : a.Backs l) {size n : Nat}
    (e : heap.blocks = a.heap.blocks.push ⟨size, .empty⟩) :
    { a with heap := heap, nextChunkId := n }.Backs l := by
  cases b with
  | run held chunk location whole starts plain offset size =>
    exact .run held chunk location whole starts plain offset size
  | slot held chunk location part carved named active lent offset size =>
    exact .slot held chunk location part carved named active lent offset size
  | own location unpooled named inside memory apart offset size =>
    have grown := Heap.extends_of_push e
    exact .own location unpooled named (Nat.lt_of_lt_of_le inside grown.size)
      (by rw [grown.get _ inside]; exact memory) apart offset size

/-- A chunk with a number of its own is added. -/
theorem Wf.withChunk (W : a.Wf) (wf : c.Wf a.config a.heap a.table)
    (fresh : ∀ d ∈ a.chunks, d.chunk.id ≠ c.chunk.id) :
    { a with chunks := a.chunks.push c }.Wf where
  config := W.config
  tiny := W.tiny
  small := W.small
  heads := W.heads
  table := W.table
  subpages := W.subpages
  chunks d hd := by
    rcases Array.mem_push.1 hd with old | rfl
    · exact W.chunks d old
    · exact wf
  distinct i j d e hi hj same := by
    simp only [Array.getElem?_push] at hi hj
    split at hi
    · rename_i last
      cases hi
      split at hj
      · rename_i last'
        rw [last, last']
      · exact absurd same.symm (fresh e (mem_of_getElem? hj))
    · split at hj
      · cases hj
        exact absurd same (fresh d (mem_of_getElem? hi))
      · exact W.distinct i j d e hi hj same
  recorded x s hs := by
    obtain ⟨d, hd, chunk, carved⟩ := W.recorded x s hs
    exact ⟨d, Array.mem_push.2 (.inl hd), chunk, carved⟩
  next := W.next
  bounded := W.bounded

theorem Backs.withChunk (b : a.Backs l) (other : l.chunk.memory ≠ c.chunk.memory) :
    { a with chunks := a.chunks.push c }.Backs l := by
  cases b with
  | run held chunk location whole starts plain offset size =>
    exact .run (Array.mem_push.2 (.inl held)) chunk location whole starts plain offset size
  | slot held chunk location part carved named active lent offset size =>
    exact .slot (Array.mem_push.2 (.inl held)) chunk location part carved named active lent offset size
  | own location unpooled named inside memory apart offset size =>
    refine .own location unpooled named inside memory (fun d hd => ?_) offset size
    rcases Array.mem_push.1 hd with old | rfl
    · exact apart d old
    · exact Ne.symm other

end Arena

end BufferPool
