import BufferPool.Proofs.Arena.Chunks

/-!
# What is leased out

The bookkeeping is read as a set of places (`Arena.Lent`): a run of pages that are not carved, and a slot
that is marked on a carved page. It rests on two views, the pages where a run starts (`Arena.starts`) and
the carved subpages (`Arena.active?`). A lease that is granted changes them in one of four ways
(`Arena.Carves`), and one that is taken back in one of four others (`Arena.Uncarves`); the first adds at
most the place of the lease to those leased out, the second takes it away.

Beside this stands how an arena ages. Granting never removes a subpage (`Arena.Grows`), and taking back never
adds one; a subpage that goes leaves its node vacant, one generation older, and its chunk goes with it
(`Arena.Shrinks`).
-/

namespace BufferPool

/-- The leases taken back. -/
def Counters.returned (c : Counters) : Nat := c.returnedPooled + c.returnedUnpooled

/-- Where a pooled lease lies: a page of a chunk, or a slot of it. -/
structure Place where
  chunk : Nat
  page : Nat
  slot : Option Nat
deriving DecidableEq

/-- The place of a pooled lease. -/
def Lease.place? (l : Lease) : Option Place :=
  if l.location = .unpooled then none else some ⟨l.chunk.id, l.page, l.slot?⟩

theorem Lease.place?_eq {l : Lease} (pooled : l.location ≠ .unpooled) :
    l.place? = some ⟨l.chunk.id, l.page, l.slot?⟩ :=
  if_neg pooled

/-- A lease with a slot is pooled. -/
theorem Lease.pooled_of_slot? {l : Lease} {k : Nat} (h : l.slot? = some k) : l.location ≠ .unpooled := by
  intro location
  rw [slot?, location] at h
  cases h

/-- A subpage without a size keeps no account. -/
theorem Subpage.Wf.size_of_mem {s : Subpage} (wf : s.Wf) {k : Nat} (h : k ∈ s.leased) :
    s.slotSize ≠ 0 := by
  intro zero
  have lt := (Subpage.mem_leased.1 h).1
  rw [wf.slots_eq, zero, Nat.div_zero] at lt
  exact Nat.not_lt_zero k lt

/-- A slot of some size is leased to somebody if it is marked. -/
theorem Subpage.Lends.mem {s : Subpage} {k : Nat} (h : s.Lends k) (some : s.slotSize ≠ 0) :
    k ∈ s.leased :=
  h.resolve_left fun zero => some zero.1

namespace Arena

open Size

variable {a a' a'' : Arena} {l : Lease} {c d : PooledChunk} {i : Nat} {m : PageMap} {id x y : SubpageId}
  {s s' u : Subpage} {t : SubpageTable} {q : Place}

/-! ## The two views -/

/-- The subpage of an identifier while its page is carved. -/
def active? (a : Arena) (x : SubpageId) : Option Subpage := (a.table.get? x).filter Subpage.active

/-- The pages of all chunks where a run starts. -/
def starts (a : Arena) : Set (Nat × Nat) :=
  {z | ∃ c ∈ a.chunks, c.chunk.id = z.1 ∧ 0 < c.pages.run z.2}

theorem active?_eq_some : a.active? x = some s ↔ a.table.get? x = some s ∧ s.active = true := by
  rw [active?, Option.filter_eq_some_iff]

/-- A carved page has slots of a size that pages are carved into. -/
theorem Wf.isSlot (W : a.Wf) (hs : a.active? x = some s) : IsSlot a.config.pageSize s.slotSize :=
  (W.subpages x s (active?_eq_some.1 hs).1).2.2 (active?_eq_some.1 hs).2

/-- A page has at least two slots of some size. -/
theorem Wf.two_le_slots (W : a.Wf) (hs : a.active? x = some s) (some : s.slotSize ≠ 0) : 2 ≤ s.slots := by
  have named := (active?_eq_some.1 hs).1
  have slot := W.isSlot hs
  rw [W.config.pageSize_eq] at slot
  rw [(W.table.subpages x s named).slots_eq, (W.subpages x s named).1, W.config.pageSize_eq,
    Nat.le_div_iff_mul_le (Nat.pos_of_ne_zero some)]
  exact slot.two_mul_le W.config.twelve_le_pageBits

theorem active?_eq_none_of_idle (hs : a.table.get? x = some s) (idle : s.active = false) :
    a.active? x = none := by
  rw [active?, hs, Option.filter_some, idle]
  rfl

theorem active?_congr (h : a'.table = a.table) : a'.active? = a.active? := by
  funext x
  rw [active?, h, active?]

theorem starts_congr (h : a'.chunks = a.chunks) : a'.starts = a.starts := by
  rw [starts, h, starts]

/-- A table with another subpage for one identifier. -/
theorem active?_withTable {o : Option Subpage} (r : a.table.Replaces id o t) :
    { a with table := t }.active? = Function.update a.active? id (o.filter Subpage.active) := by
  funext x
  rw [active?, r.get?]
  by_cases here : x = id
  · rw [if_pos here, here, Function.update_self]
  · rw [if_neg here, Function.update_of_ne here, active?]

/-- A subpage that is not carved, and was not, is not seen. -/
theorem update_active?_none (h : a.active? id = none) : Function.update a.active? id none = a.active? := by
  rw [← h]
  exact Function.update_eq_self ..

theorem mem_starts_withPages (W : a.Wf) (hi : a.chunks[i]? = some c) {z : Nat × Nat} :
    z ∈ (a.withPages i m).starts ↔ if z.1 = c.chunk.id then 0 < m.run z.2 else z ∈ a.starts := by
  constructor
  · intro ⟨d, hd, chunk, run⟩
    rcases (mem_withPages W hi).1 hd with rfl | ⟨old, ne⟩
    · rw [if_pos chunk.symm]
      exact run
    · rw [if_neg fun e => ne (chunk.trans e)]
      exact ⟨d, old, chunk, run⟩
  · intro h
    split at h
    · rename_i here
      exact ⟨_, (mem_withPages W hi).2 (.inl rfl), here.symm, h⟩
    · rename_i other
      obtain ⟨d, hd, chunk, run⟩ := h
      exact ⟨d, (mem_withPages W hi).2 (.inr ⟨hd, fun e => other (chunk.symm.trans e)⟩), chunk, run⟩

/-- On a chunk that is held, a run starts where the chunk says so. -/
theorem mem_starts (W : a.Wf) (held : c ∈ a.chunks) {page : Nat} :
    (c.chunk.id, page) ∈ a.starts ↔ 0 < c.pages.run page := by
  constructor
  · intro ⟨d, hd, chunk, run⟩
    rwa [W.eq_of_id hd held chunk] at run
  · intro run
    exact ⟨c, held, rfl, run⟩

/-- A run is taken. -/
theorem starts_taken (W : a.Wf) (hi : a.chunks[i]? = some c) {page length : Nat} (positive : 0 < length)
    (run : ∀ p, m.run p = if p = page then length else c.pages.run p) :
    (a.withPages i m).starts = insert (c.chunk.id, page) a.starts := by
  ext ⟨chunk, p⟩
  rw [mem_starts_withPages W hi, Set.mem_insert_iff, Prod.mk.injEq, run]
  by_cases here : chunk = c.chunk.id
  · subst here
    rw [if_pos rfl, mem_starts W (mem_of_getElem? hi)]
    by_cases same : p = page
    · simp [same, positive]
    · simp [same]
  · simp [here]

/-- A run is returned. -/
theorem starts_returned (W : a.Wf) (hi : a.chunks[i]? = some c) {page : Nat}
    (run : ∀ p, m.run p = if p = page then 0 else c.pages.run p) :
    (a.withPages i m).starts = a.starts \ {(c.chunk.id, page)} := by
  ext ⟨chunk, p⟩
  rw [mem_starts_withPages W hi, Set.mem_sdiff, Set.mem_singleton_iff, Prod.mk.injEq, run]
  by_cases here : chunk = c.chunk.id
  · subst here
    rw [if_pos rfl, mem_starts W (mem_of_getElem? hi)]
    by_cases same : p = page
    · simp [same]
    · simp [same]
  · simp [here]

/-- No run changes. -/
theorem starts_withPages (W : a.Wf) (hi : a.chunks[i]? = some c) (run : ∀ p, m.run p = c.pages.run p) :
    (a.withPages i m).starts = a.starts := by
  ext ⟨chunk, p⟩
  rw [mem_starts_withPages W hi, run]
  split
  · rename_i here
    cases here
    rw [mem_starts W (mem_of_getElem? hi)]
  · rfl

/-- A chunk with a single run is added. -/
theorem starts_withChunk {page length : Nat} (positive : 0 < length)
    (run : ∀ p, c.pages.run p = if p = page then length else 0) :
    { a with chunks := a.chunks.push c }.starts = insert (c.chunk.id, page) a.starts := by
  ext ⟨chunk, p⟩
  simp only [starts, Set.mem_ofPred_eq, Set.mem_insert_iff, Prod.mk.injEq, Array.mem_push]
  constructor
  · intro ⟨d, hd, id, started⟩
    rcases hd with old | rfl
    · exact .inr ⟨d, old, id, started⟩
    · rw [run] at started
      split at started
      · rename_i here
        exact .inl ⟨id.symm, here⟩
      · exact absurd started (Nat.lt_irrefl 0)
  · intro outcome
    rcases outcome with ⟨rfl, rfl⟩ | ⟨d, hd, id, started⟩
    · exact ⟨c, .inr rfl, rfl, by rw [run, if_pos rfl]; exact positive⟩
    · exact ⟨d, .inl hd, id, started⟩

/-- A page of a chunk has one subpage. -/
theorem Wf.eq_of_page (W : a.Wf) (hx : a.table.get? x = some s) (hy : a.table.get? y = some u)
    (chunk : u.chunk = s.chunk) (page : u.page.toNat = s.page.toNat) : x = y := by
  obtain ⟨c, hc, id, carved⟩ := W.recorded x s hx
  have other := W.carved_of_get? hy hc (id.trans chunk.symm)
  rw [page, carved] at other
  exact Option.some.inj (Option.some.inj other)

/-! ## Places -/

/-- No carved subpage is on a page. -/
def Plain (a : Arena) (chunk page : Nat) : Prop :=
  ∀ x s, a.active? x = some s → s.chunk = chunk → s.page.toNat ≠ page

/-- A subpage has a slot of a page marked. -/
structure Marks (s : Subpage) (chunk page k : Nat) : Prop where
  chunk : s.chunk = chunk
  page : s.page.toNat = page
  mem : k ∈ s.leased

/-- What is leased out: a run of pages that are not carved, or a slot that is marked. -/
def Lent (a : Arena) (q : Place) : Prop :=
  match q.slot with
  | none => (q.chunk, q.page) ∈ a.starts ∧ a.Plain q.chunk q.page
  | some k => ∃ x s, a.active? x = some s ∧ Marks s q.chunk q.page k

/-- A page that has no carved subpage after a change of one had none before, if the one was not on it. -/
theorem Plain.of_update {o : Option Subpage} {chunk page : Nat}
    (active : a'.active? = Function.update a.active? x o) (plain : a'.Plain chunk page)
    (mine : ∀ s, a.active? x = some s → s.chunk = chunk → s.page.toNat ≠ page) :
    a.Plain chunk page := by
  intro y u hu
  by_cases here : y = x
  · subst here
    exact mine u hu
  · exact plain y u (by rw [active, Function.update_of_ne here]; exact hu)

/-- A carved page that changes stays where it is. -/
theorem Plain.of_changed {chunk page : Nat} (active : a'.active? = Function.update a.active? x (some s'))
    (was : a.active? x = some s) (same : s.SamePage s') (plain : a'.Plain chunk page) :
    a.Plain chunk page := by
  refine plain.of_update active fun u hu => ?_
  cases hu.symm.trans was
  rw [← same.chunk, ← same.page]
  exact plain x s' (by rw [active, Function.update_self])

/-- A slot that is marked after a change of one subpage is marked there, or was marked elsewhere. -/
theorem marks_of_update {o : Option Subpage} {chunk page k : Nat}
    (active : a'.active? = Function.update a.active? x o)
    (marked : ∃ y u, a'.active? y = some u ∧ Marks u chunk page k) :
    (∃ u, o = some u ∧ Marks u chunk page k) ∨
      ∃ y u, y ≠ x ∧ a.active? y = some u ∧ Marks u chunk page k := by
  obtain ⟨y, u, hu, marks⟩ := marked
  rw [active] at hu
  by_cases here : y = x
  · subst here
    rw [Function.update_self] at hu
    exact .inl ⟨u, hu, marks⟩
  · rw [Function.update_of_ne here] at hu
    exact .inr ⟨y, u, here, hu, marks⟩

/-- A subpage on the page of a lease. -/
structure Bears (s : Subpage) (l : Lease) : Prop where
  chunk : s.chunk = l.chunk.id
  page : s.page.toNat = l.page

/-- What granting a lease does to the views. -/
inductive Carves (a : Arena) (l : Lease) (a' : Arena) : Prop where
  /-- A private chunk. -/
  | own (location : l.location = .unpooled) (starts : a'.starts = a.starts)
      (active : a'.active? = a.active?)
  /-- A run of free pages. -/
  | run (pooled : l.location ≠ .unpooled) (whole : l.slot? = none)
      (starts : a'.starts = insert (l.chunk.id, l.page) a.starts) (active : a'.active? = a.active?)
  /-- A slot of a page that offers one. -/
  | listed {x : SubpageId} {s s' : Subpage} {k : Nat} (slot : l.slot? = some k) (bears : Bears s l)
      (size : l.maxLength = s.slotSize) (was : a.active? x = some s) (leases : Subpage.Leases s k s')
      (starts : a'.starts = a.starts) (active : a'.active? = Function.update a.active? x (some s'))
  /-- The first slot of a free page, carved because no page of its size offers one. -/
  | fresh {x : SubpageId} {s s' : Subpage} {k : Nat} (slot : l.slot? = some k) (bears : Bears s l)
      (size : l.maxLength = s.slotSize) (was : a.active? x = none) (blank : s.leased = ∅)
      (leases : Subpage.Leases s k s')
      (needed : ∀ y u, a.active? y = some u → u.Offers → u.slotSize ≠ s.slotSize)
      (starts : a'.starts = insert (l.chunk.id, l.page) a.starts)
      (active : a'.active? = Function.update a.active? x (some s'))

/-- What taking a lease back does to the views. -/
inductive Uncarves (a : Arena) (l : Lease) (a' : Arena) : Prop where
  /-- A private chunk. -/
  | own (location : l.location = .unpooled) (starts : a'.starts = a.starts)
      (active : a'.active? = a.active?)
  /-- A run of pages. -/
  | run (pooled : l.location ≠ .unpooled) (whole : l.slot? = none)
      (starts : a'.starts = a.starts \ {(l.chunk.id, l.page)}) (active : a'.active? = a.active?)
  /-- A slot of a page that stays carved. -/
  | kept {x : SubpageId} {s s' : Subpage} {k : Nat} (slot : l.slot? = some k) (bears : Bears s l)
      (was : a.active? x = some s) (regains : Subpage.Regains s k true s')
      (retention : a.table.Retention headOf x s s' true) (starts : a'.starts = a.starts)
      (active : a'.active? = Function.update a.active? x (some s'))
  /-- The last slot of a page, and the page with it. -/
  | retired {x : SubpageId} {s s' : Subpage} {k : Nat} (slot : l.slot? = some k) (bears : Bears s l)
      (was : a.active? x = some s) (regains : Subpage.Regains s k false s')
      (retention : a.table.Retention headOf x s s' false)
      (starts : a'.starts = a.starts \ {(l.chunk.id, l.page)})
      (active : a'.active? = Function.update a.active? x none)

/-- A slot that a subpage has marked after leasing slot `k` was marked before, or is slot `k`. -/
theorem mem_leased_of_leases {k j : Nat} (h : Subpage.Leases s k s') (hj : j ∈ s'.leased) :
    j ∈ s.leased ∨ j = k := by
  have some : s.slotSize ≠ 0 := by
    rw [← h.same.slotSize]
    exact h.wf.size_of_mem hj
  exact (h.only j (.inr hj)).imp_left fun lent => lent.mem some

/-- A slot that a subpage has marked after slot `k` came back was marked before, and is not slot `k`. -/
theorem mem_leased_of_regains {k j : Nat} {stays : Bool} (h : Subpage.Regains s k stays s')
    (hj : j ∈ s'.leased) : j ∈ s.leased ∧ j ≠ k := by
  have some : s.slotSize ≠ 0 := by
    rw [← h.slotSize]
    exact h.wf.size_of_mem hj
  refine ⟨(h.only j (.inr hj)).mem some, ?_⟩
  intro equal
  subst equal
  exact h.back some (.inr hj)

/-- A lease that is granted adds its place to those leased out, and no other. -/
theorem Carves.lent (h : a.Carves l a') (lent : a'.Lent q) : a.Lent q ∨ l.place? = some q := by
  obtain ⟨chunk, page, slot⟩ := q
  cases h with
  | own _ starts active =>
    left
    simpa only [Lent, Plain, starts, active] using lent
  | run pooled whole starts active =>
    rw [Lease.place?_eq pooled, whole]
    cases slot with
    | none =>
      simp only [Lent, Plain, starts, active, Set.mem_insert_iff, Prod.mk.injEq] at lent ⊢
      obtain ⟨⟨rfl, rfl⟩ | old, plain⟩ := lent
      · exact .inr rfl
      · exact .inl ⟨old, plain⟩
    | some k =>
      left
      simpa only [Lent, active] using lent
  | @listed x s s' k hslot bears _ was leases starts active =>
    rw [Lease.place?_eq (Lease.pooled_of_slot? hslot), hslot]
    cases slot with
    | none => exact .inl ⟨starts ▸ lent.1, lent.2.of_changed active was leases.same.toSamePage⟩
    | some j =>
      rcases marks_of_update active lent with ⟨u, hu, marks⟩ | ⟨y, u, -, hu, marks⟩
      · cases hu
        have hchunk : s.chunk = chunk := leases.same.chunk.symm.trans marks.chunk
        have hpage : s.page.toNat = page :=
          (congrArg UInt32.toNat leases.same.page).symm.trans marks.page
        rcases mem_leased_of_leases leases marks.mem with old | rfl
        · exact .inl ⟨x, s, was, hchunk, hpage, old⟩
        · right
          rw [← hchunk, ← hpage, bears.chunk, bears.page]
      · exact .inl ⟨y, u, hu, marks⟩
  | @fresh x s s' k hslot bears _ was blank leases _ starts active =>
    rw [Lease.place?_eq (Lease.pooled_of_slot? hslot), hslot]
    have mine : a'.active? x = some s' := by rw [active, Function.update_self]
    have hchunk := leases.same.chunk.trans bears.chunk
    have hpage := (congrArg UInt32.toNat leases.same.page).trans bears.page
    cases slot with
    | none =>
      refine .inl ⟨?_, lent.2.of_update active fun u hu => by rw [was] at hu; cases hu⟩
      have start := lent.1
      rw [starts, Set.mem_insert_iff, Prod.mk.injEq] at start
      refine start.resolve_left fun here => lent.2 x s' mine ?_ ?_
      · exact hchunk.trans here.1.symm
      · exact hpage.trans here.2.symm
    | some j =>
      rcases marks_of_update active lent with ⟨u, hu, marks⟩ | ⟨y, u, -, hu, marks⟩
      · cases hu
        rcases mem_leased_of_leases leases marks.mem with old | rfl
        · rw [blank] at old
          exact absurd old (Finset.notMem_empty j)
        · right
          rw [← hchunk, ← hpage, marks.chunk, marks.page]
      · exact .inl ⟨y, u, hu, marks⟩

/-- A slot on another carved page than the one of a lease is not the place of the lease. -/
theorem place?_ne_of_other (W : a.Wf) (bears : Bears s l) (was : a.active? x = some s)
    (hu : a.active? y = some u) (other : y ≠ x) {chunk page k : Nat} (marks : Marks u chunk page k) :
    l.place? ≠ some ⟨chunk, page, some k⟩ := by
  intro place
  unfold Lease.place? at place
  split at place
  · cases place
  · rw [Option.some.injEq, Place.mk.injEq] at place
    obtain ⟨rfl, rfl, -⟩ := place
    refine other (W.eq_of_page (active?_eq_some.1 was).1 (active?_eq_some.1 hu).1 ?_ ?_).symm
    · exact marks.chunk.trans bears.chunk.symm
    · exact marks.page.trans bears.page.symm

/-- A lease that is taken back takes its place from those leased out. -/
theorem Uncarves.lent (W : a.Wf) (h : a.Uncarves l a') (lent : a'.Lent q) :
    a.Lent q ∧ l.place? ≠ some q := by
  obtain ⟨chunk, page, slot⟩ := q
  cases h with
  | own location starts active =>
    refine ⟨by simpa only [Lent, Plain, starts, active] using lent, ?_⟩
    rw [Lease.place?, if_pos location]
    exact (Option.some_ne_none _).symm
  | run pooled whole starts active =>
    rw [Lease.place?_eq pooled, whole]
    cases slot with
    | none =>
      simp only [Lent, Plain, starts, active, Set.mem_sdiff, Set.mem_singleton_iff,
        Prod.mk.injEq] at lent ⊢
      refine ⟨⟨lent.1.1, lent.2⟩, fun e => lent.1.2 ?_⟩
      cases e
      exact ⟨rfl, rfl⟩
    | some k => exact ⟨by simpa only [Lent, active] using lent, fun e => by cases e⟩
  | @kept x s s' k hslot bears was regains _ starts active =>
    cases slot with
    | none =>
      rw [Lease.place?_eq (Lease.pooled_of_slot? hslot), hslot]
      exact ⟨⟨starts ▸ lent.1, lent.2.of_changed active was regains.same⟩, fun e => by cases e⟩
    | some j =>
      rcases marks_of_update active lent with ⟨u, hu, marks⟩ | ⟨y, u, other, hu, marks⟩
      · cases hu
        obtain ⟨old, ne⟩ := mem_leased_of_regains regains marks.mem
        have hchunk := regains.same.chunk.symm.trans marks.chunk
        have hpage := (congrArg UInt32.toNat regains.same.page).symm.trans marks.page
        refine ⟨⟨x, s, was, hchunk, hpage, old⟩, ?_⟩
        rw [Lease.place?_eq (Lease.pooled_of_slot? hslot), hslot]
        intro e
        cases e
        exact ne rfl
      · exact ⟨⟨y, u, hu, marks⟩, place?_ne_of_other W bears was hu other marks⟩
  | @retired x s s' k hslot bears was _ _ starts active =>
    cases slot with
    | none =>
      rw [Lease.place?_eq (Lease.pooled_of_slot? hslot), hslot]
      have start := lent.1
      rw [starts, Set.mem_sdiff, Set.mem_singleton_iff, Prod.mk.injEq] at start
      refine ⟨⟨start.1, lent.2.of_update active fun u hu hchunk hpage => start.2 ?_⟩,
        fun e => by cases e⟩
      cases hu.symm.trans was
      exact ⟨hchunk.symm.trans bears.chunk, hpage.symm.trans bears.page⟩
    | some j =>
      rcases marks_of_update active lent with ⟨u, hu, -⟩ | ⟨y, u, other, hu, marks⟩
      · cases hu
      · exact ⟨⟨y, u, hu, marks⟩, place?_ne_of_other W bears was hu other marks⟩

/-! ## Ageing -/

/-- Nothing was removed, and the chunks that are new have new numbers. -/
structure Grows (a a' : Arena) : Prop where
  next : a.nextChunkId ≤ a'.nextChunkId
  chunks : ∀ c' ∈ a'.chunks, (∃ c ∈ a.chunks, c.chunk = c'.chunk) ∨ a.nextChunkId ≤ c'.chunk.id
  named : ∀ x s, a.table.get? x = some s → ∃ s', a'.table.get? x = some s' ∧ s.SamePage s'
  generation : ∀ n, (a'.table.node n).generation = (a.table.node n).generation
  keepLast : a'.table.keepLast = a.table.keepLast

/-- Nothing was added, and a subpage that was removed left its node one generation older and its chunk. -/
structure Shrinks (a a' : Arena) : Prop where
  next : a'.nextChunkId = a.nextChunkId
  chunks : ∀ c' ∈ a'.chunks, ∃ c ∈ a.chunks, c.chunk = c'.chunk
  named : ∀ x s, a.table.get? x = some s → (∃ s', a'.table.get? x = some s' ∧ s.SamePage s') ∨
    (a'.table.node x.node).occupant = .vacant ∧
      (a'.table.node x.node).generation = x.generation + 1 ∧ ∀ c' ∈ a'.chunks, c'.chunk.id ≠ s.chunk
  vacant : ∀ n, (a.table.node n).occupant = .vacant → (a'.table.node n).occupant = .vacant ∧
    (a'.table.node n).generation = (a.table.node n).generation
  generation : ∀ n, (a'.table.node n).generation = (a.table.node n).generation ∨
    (a'.table.node n).occupant = .vacant ∧
      (a'.table.node n).generation = (a.table.node n).generation + 1
  keepLast : a'.table.keepLast = a.table.keepLast

theorem Grows.refl (a : Arena) : a.Grows a where
  next := Nat.le_refl _
  chunks c hc := .inl ⟨c, hc, rfl⟩
  named _ s hs := ⟨s, hs, .refl s⟩
  generation _ := rfl
  keepLast := rfl

theorem Grows.trans (h : a.Grows a') (h' : a'.Grows a'') : a.Grows a'' where
  next := Nat.le_trans h.next h'.next
  chunks c hc := by
    rcases h'.chunks c hc with ⟨d, hd, same⟩ | new
    · rw [← same]
      exact h.chunks d hd
    · exact .inr (Nat.le_trans h.next new)
  named x s hs := by
    obtain ⟨s', hs', same⟩ := h.named x s hs
    obtain ⟨s'', hs'', same'⟩ := h'.named x s' hs'
    exact ⟨s'', hs'', same.trans same'⟩
  generation n := (h'.generation n).trans (h.generation n)
  keepLast := h'.keepLast.trans h.keepLast

theorem Shrinks.refl (a : Arena) : a.Shrinks a where
  next := rfl
  chunks c hc := ⟨c, hc, rfl⟩
  named _ s hs := .inl ⟨s, hs, .refl s⟩
  vacant _ free := ⟨free, rfl⟩
  generation _ := .inl rfl
  keepLast := rfl

theorem Shrinks.trans (h : a.Shrinks a') (h' : a'.Shrinks a'') : a.Shrinks a'' where
  next := h'.next.trans h.next
  chunks c hc := by
    obtain ⟨d, hd, same⟩ := h'.chunks c hc
    rw [← same]
    exact h.chunks d hd
  named x s hs := by
    rcases h.named x s hs with ⟨s', hs', same⟩ | ⟨free, generation, gone⟩
    · rcases h'.named x s' hs' with ⟨s'', hs'', same'⟩ | ⟨free, generation, gone⟩
      · exact .inl ⟨s'', hs'', same.trans same'⟩
      · exact .inr ⟨free, generation, fun c hc => by rw [← same.chunk]; exact gone c hc⟩
    · obtain ⟨free', generation'⟩ := h'.vacant _ free
      refine .inr ⟨free', generation'.trans generation, fun c hc => ?_⟩
      obtain ⟨d, hd, same⟩ := h'.chunks c hc
      rw [← same]
      exact gone d hd
  vacant n free := by
    obtain ⟨free', generation⟩ := h.vacant n free
    obtain ⟨free'', generation'⟩ := h'.vacant n free'
    exact ⟨free'', generation'.trans generation⟩
  generation n := by
    rcases h.generation n with same | ⟨free, older⟩
    · rw [← same]
      exact h'.generation n
    · obtain ⟨free', same⟩ := h'.vacant n free
      exact .inr ⟨free', same.trans older⟩
  keepLast := h'.keepLast.trans h.keepLast

/-- What is new came before what went. -/
def Ages (a a' : Arena) : Prop := ∃ b : Arena, a.Grows b ∧ b.Shrinks a'

theorem Grows.ages (h : a.Grows a') : a.Ages a' := ⟨a', h, .refl a'⟩

theorem Shrinks.ages (h : a.Shrinks a') : a.Ages a' := ⟨a, .refl a, h⟩

/-- A chunk with a number that was given out before was held before. -/
structure Numbers (a a' : Arena) : Prop where
  next : a.nextChunkId ≤ a'.nextChunkId
  old : ∀ c' ∈ a'.chunks, c'.chunk.id < a.nextChunkId → ∃ c ∈ a.chunks, c.chunk = c'.chunk

theorem Numbers.trans (h : a.Numbers a') (h' : a'.Numbers a'') : a.Numbers a'' where
  next := Nat.le_trans h.next h'.next
  old c hc given := by
    obtain ⟨d, hd, same⟩ := h'.old c hc (Nat.lt_of_lt_of_le given h.next)
    rw [← same] at given ⊢
    exact h.old d hd given

/-- Numbers are not given out again. -/
theorem Ages.numbers (h : a.Ages a') : a.Numbers a' := by
  obtain ⟨b, grows, shrinks⟩ := h
  refine ⟨shrinks.next ▸ grows.next, fun c hc given => ?_⟩
  obtain ⟨d, hd, same⟩ := shrinks.chunks c hc
  rw [← same] at given ⊢
  exact (grows.chunks d hd).resolve_right (Nat.not_le_of_lt given)

/-- Two arenas with the same subpages and chunks, whatever their counts and contents. -/
structure SameCarving (a a' : Arena) : Prop where
  table : a'.table = a.table
  chunks : a'.chunks = a.chunks
  nextChunkId : a'.nextChunkId = a.nextChunkId
  config : a'.config = a.config

namespace SameCarving

theorem refl (a : Arena) : a.SameCarving a := ⟨rfl, rfl, rfl, rfl⟩

theorem tends (h : a.SameCarving a') : a.Tends a' := tends_of_chunks h.chunks h.config fun I => h.table ▸ I

theorem active? (h : a.SameCarving a') : a'.active? = a.active? := active?_congr h.table

theorem starts (h : a.SameCarving a') : a'.starts = a.starts := starts_congr h.chunks

theorem grows (h : a.SameCarving a') : a.Grows a' where
  next := h.nextChunkId.ge
  chunks c hc := .inl ⟨c, h.chunks ▸ hc, rfl⟩
  named x s hs := ⟨s, by rw [h.table]; exact hs, .refl s⟩
  generation _ := by rw [h.table]
  keepLast := congrArg _ h.table

theorem shrinks (h : a.SameCarving a') : a.Shrinks a' where
  next := h.nextChunkId
  chunks c hc := ⟨c, h.chunks ▸ hc, rfl⟩
  named x s hs := .inl ⟨s, by rw [h.table]; exact hs, .refl s⟩
  vacant n free := by
    rw [h.table]
    exact ⟨free, rfl⟩
  generation _ := .inl (by rw [h.table])
  keepLast := congrArg _ h.table

end SameCarving

/-- Chunks keep their names when the pages of one change. -/
theorem chunk_of_withPages (hd : d ∈ (a.withPages i m).chunks) :
    ∃ c ∈ a.chunks, c.chunk = d.chunk := by
  obtain ⟨j, hj⟩ := Array.mem_iff_getElem?.1 hd
  rw [getElem?_withPages] at hj
  split at hj
  · obtain ⟨e, he, rfl⟩ := Option.map_eq_some_iff.1 hj
    exact ⟨e, mem_of_getElem? he, rfl⟩
  · exact ⟨d, mem_of_getElem? hj, rfl⟩

theorem grows_withPages : a.Grows (a.withPages i m) where
  next := Nat.le_refl _
  chunks _ hd := .inl (chunk_of_withPages hd)
  named _ s hs := ⟨s, hs, .refl s⟩
  generation _ := rfl
  keepLast := rfl

theorem shrinks_withPages : a.Shrinks (a.withPages i m) where
  next := rfl
  chunks _ hd := chunk_of_withPages hd
  named _ s hs := .inl ⟨s, hs, .refl s⟩
  vacant _ free := ⟨free, rfl⟩
  generation _ := .inl rfl
  keepLast := rfl

/-- An identifier that names another subpage leaves the generations as they were. -/
theorem generation_withTable (r : a.table.Replaces id (some s') t) (n : Nat) :
    (t.node n).generation = (a.table.node n).generation := by
  rw [r.generation]
  split
  · rename_i here
    rw [here, r.was]
    rfl
  · rfl

/-- A subpage that changes on its page, or one that is new. -/
theorem grows_withTable (r : a.table.Replaces id (some s') t)
    (same : ∀ s, a.table.get? id = some s → s.SamePage s') : a.Grows { a with table := t } where
  next := Nat.le_refl _
  chunks c hc := .inl ⟨c, hc, rfl⟩
  named x s hs := by
    by_cases here : x = id
    · exact ⟨s', (r.get? x).trans (if_pos here), same s (here ▸ hs)⟩
    · exact ⟨s, (r.get? x).trans ((if_neg here).trans hs), .refl s⟩
  generation := generation_withTable r
  keepLast := r.keepLast

theorem shrinks_withTable (hs : a.table.get? id = some s) (r : a.table.Replaces id (some s') t)
    (same : s.SamePage s') : a.Shrinks { a with table := t } where
  next := rfl
  chunks c hc := ⟨c, hc, rfl⟩
  named x u hu := by
    left
    by_cases here : x = id
    · rw [here, hs] at hu
      cases hu
      exact ⟨s', (r.get? x).trans (if_pos here), same⟩
    · exact ⟨u, (r.get? x).trans ((if_neg here).trans hu), .refl u⟩
  vacant n free := by
    have other : n ≠ id.node := by
      intro here
      rw [here, (SubpageTable.get?_eq_some.1 hs).1] at free
      cases free
    exact ⟨(r.occupant n).trans ((if_neg other).trans free), generation_withTable r n⟩
  generation n := .inl (generation_withTable r n)
  keepLast := r.keepLast

/-! ## Leases granted and taken back -/

/-- A lease is granted. -/
structure Adds (a : Arena) (l : Lease) (a' : Arena) : Prop where
  carves : a.Carves l a'
  grows : a.Grows a'
  tends : a.Tends a'
  returned : a'.counters.returned = a.counters.returned

/-- A lease is taken back. -/
structure Removes (a : Arena) (l : Lease) (a' : Arena) : Prop where
  uncarves : a.Uncarves l a'
  shrinks : a.Shrinks a'
  tends : a.Tends a'
  returned : a'.counters.returned = a.counters.returned + 1

/-- The views before and after are all that matters. -/
theorem Carves.congr {b b' : Arena} (h : a.Carves l a') (before : b.SameCarving a)
    (after : a'.SameCarving b') : b.Carves l b' := by
  have starts_eq := before.starts
  have active_eq := before.active?
  cases h with
  | own location starts active =>
    exact .own location (after.starts.trans (starts.trans starts_eq))
      (after.active?.trans (active.trans active_eq))
  | run pooled whole starts active =>
    exact .run pooled whole (by rw [after.starts, starts, starts_eq])
      (after.active?.trans (active.trans active_eq))
  | listed slot bears size was leases starts active =>
    exact .listed slot bears size (by rw [← active_eq]; exact was) leases
      (after.starts.trans (starts.trans starts_eq)) (by rw [after.active?, active, active_eq])
  | fresh slot bears size was blank leases needed starts active =>
    exact .fresh slot bears size (by rw [← active_eq]; exact was) blank leases
      (by rw [← active_eq]; exact needed) (by rw [after.starts, starts, starts_eq])
      (by rw [after.active?, active, active_eq])

theorem Uncarves.congr {b b' : Arena} (h : a.Uncarves l a') (before : b.SameCarving a)
    (after : a'.SameCarving b') : b.Uncarves l b' := by
  have starts_eq := before.starts
  have active_eq := before.active?
  cases h with
  | own location starts active =>
    exact .own location (after.starts.trans (starts.trans starts_eq))
      (after.active?.trans (active.trans active_eq))
  | run pooled whole starts active =>
    exact .run pooled whole (by rw [after.starts, starts, starts_eq])
      (after.active?.trans (active.trans active_eq))
  | kept slot bears was regains retention starts active =>
    exact .kept slot bears (by rw [← active_eq]; exact was) regains
      (by rw [← before.table]; exact retention) (after.starts.trans (starts.trans starts_eq))
      (by rw [after.active?, active, active_eq])
  | retired slot bears was regains retention starts active =>
    exact .retired slot bears (by rw [← active_eq]; exact was) regains
      (by rw [← before.table]; exact retention) (by rw [after.starts, starts, starts_eq])
      (by rw [after.active?, active, active_eq])

/-- Two arenas that differ in counts and contents, but not in what came back. -/
structure SameLeases (a a' : Arena) : Prop extends SameCarving a a' where
  returned : a'.counters.returned = a.counters.returned

theorem SameLeases.refl (a : Arena) : a.SameLeases a := ⟨.refl a, rfl⟩

theorem Adds.congr {b b' : Arena} (h : a.Adds l a') (before : b.SameLeases a)
    (after : a'.SameLeases b') : b.Adds l b' where
  carves := h.carves.congr before.toSameCarving after.toSameCarving
  grows := (before.grows.trans h.grows).trans after.grows
  tends := (before.tends.trans h.tends).trans after.tends
  returned := after.returned.trans (h.returned.trans before.returned)

theorem Removes.congr {b b' : Arena} (h : a.Removes l a') (before : b.SameLeases a)
    (after : a'.SameLeases b') : b.Removes l b' where
  uncarves := h.uncarves.congr before.toSameCarving after.toSameCarving
  shrinks := (before.shrinks.trans h.shrinks).trans after.shrinks
  tends := (before.tends.trans h.tends).trans after.tends
  returned := by rw [after.returned, h.returned, before.returned]

end Arena

end BufferPool
