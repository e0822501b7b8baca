import BufferPool.Proofs.Pool.Course

/-!
# The ledger of the pool

The leases of a pool (`Pool.leases`) are all that its arena has leased out: every place that is leased out
is the place of one of them (`Pool.Claimed`), and no two of them share a place unless they are empty. So
the figures of the arena can be read off the leases.
-/

namespace BufferPool

/-- Whether a lease is cut from a chunk of the pool. -/
def Lease.isPooled (l : Lease) : Bool := decide (l.location ≠ .unpooled)

/-- Whether a lease is a run of pages of a chunk of the pool. -/
def Lease.isRun (l : Lease) : Bool := l.isPooled && l.slot?.isNone

/-- Whether a lease is a slot of a page. -/
def Lease.isSlotOf (chunk page : Nat) (l : Lease) : Bool :=
  decide (l.chunk.id = chunk ∧ l.page = page) && l.slot?.isSome

/-- The pages of a lease that is a run. -/
def Lease.asRun (pageSize : Nat) (l : Lease) : Run := ⟨l.chunk.id, l.page, l.maxLength / pageSize⟩

namespace Lease

variable {l : Lease}

theorem isPooled_iff : l.isPooled = true ↔ l.location ≠ .unpooled := decide_eq_true_iff

theorem isRun_iff : l.isRun = true ↔ l.location ≠ .unpooled ∧ l.slot? = none := by
  rw [isRun, Bool.and_eq_true, isPooled_iff, Option.isNone_iff_eq_none]

/-- A lease with a place has a locator. -/
theorem pooled_of_place? {q : Place} (h : l.place? = some q) : ∃ r, l.location = .pooled r := by
  cases location : l.location with
  | pooled r => exact ⟨r, rfl⟩
  | unpooled =>
    rw [place?, if_pos location] at h
    cases h

/-- A place without a slot is that of a run. -/
theorem place?_eq_run {chunk page : Nat} :
    l.place? = some ⟨chunk, page, none⟩ ↔ l.isRun = true ∧ l.chunk.id = chunk ∧ l.page = page := by
  rw [isRun_iff]
  constructor
  · intro h
    obtain ⟨r, location⟩ := pooled_of_place? h
    have pooled : l.location ≠ .unpooled := by rw [location]; nofun
    rw [place?_eq pooled, Option.some.injEq, Place.mk.injEq] at h
    exact ⟨⟨pooled, h.2.2⟩, h.1, h.2.1⟩
  · rintro ⟨⟨pooled, whole⟩, rfl, rfl⟩
    rw [place?_eq pooled, whole]

/-- A place with a slot is that of a lease of the slot. -/
theorem place?_eq_slot {chunk page k : Nat} :
    l.place? = some ⟨chunk, page, some k⟩ ↔ l.slot? = some k ∧ l.chunk.id = chunk ∧ l.page = page := by
  constructor
  · intro h
    obtain ⟨r, location⟩ := pooled_of_place? h
    have pooled : l.location ≠ .unpooled := by rw [location]; nofun
    rw [place?_eq pooled, Option.some.injEq, Place.mk.injEq] at h
    exact ⟨h.2.2, h.1, h.2.1⟩
  · rintro ⟨slot, rfl, rfl⟩
    rw [place?_eq (pooled_of_slot? slot), slot]

end Lease

namespace Arena

variable {a a' a'' : Arena} {l k : Lease} {q : Place}

/-! ## The places of leases -/

/-- A run of pages stands in the chunk, and none of them is carved. -/
theorem Backs.of_run (W : a.Wf) (h : a.Backs l) (run : l.isRun = true) :
    ∃ c ∈ a.chunks, c.chunk.id = l.chunk.id ∧ 0 < c.pages.run l.page ∧ a.Plain l.chunk.id l.page ∧
      l.offset = l.page * a.config.pageSize ∧ l.maxLength = c.pages.run l.page * a.config.pageSize := by
  obtain ⟨pooled, whole⟩ := Lease.isRun_iff.1 run
  cases h with
  | @run c r held chunk location _ starts plain offset size =>
    have page := Lease.page_eq location
    rw [page]
    refine ⟨c, held, by rw [chunk], starts, fun x s hs hchunk hpage => ?_, offset, size⟩
    obtain ⟨named, active⟩ := active?_eq_some.1 hs
    have carved := W.carved_of_get? named held (by rw [hchunk, chunk])
    rw [hpage] at carved
    rw [plain x s carved named] at active
    cases active
  | slot _ _ location part =>
    rw [Lease.slot?_eq location, part] at whole
    cases whole
  | own location => exact absurd location pooled

/-- A slot stands in a carved page that has lent it. -/
theorem Backs.of_slot (W : a.Wf) (h : a.Backs l) {j : Nat} (part : l.slot? = some j) :
    ∃ x s, a.active? x = some s ∧ Bears s l ∧ s.Lends j ∧
      l.offset = l.page * a.config.pageSize + j * s.slotSize ∧ l.maxLength = s.slotSize := by
  cases h with
  | run _ _ location whole =>
    rw [Lease.slot?_eq location, whole] at part
    cases part
  | @slot c r i x s held chunk location slot carved named active lent offset size =>
    have page := Lease.page_eq location
    rw [Lease.slot?_eq location, slot] at part
    cases part
    obtain ⟨hchunk, hpage, -⟩ := W.of_carved held carved named
    rw [page]
    exact ⟨x, s, active?_eq_some.2 ⟨named, active⟩, ⟨by rw [hchunk, chunk], hpage.trans page.symm⟩, lent,
      offset, size⟩
  | own location => exact absurd location (Lease.pooled_of_slot? part)

/-- Leases at the same place that share no byte are empty. -/
theorem Backs.empty_of_place (W : a.Wf) (h : a.Backs l) (h' : a.Backs k) (apart : l.Apart k)
    (place : l.place? = some q) (place' : k.place? = some q) : l.maxLength = 0 := by
  obtain ⟨chunk, page, slot⟩ := q
  have figures : l.chunk.id = k.chunk.id ∧ l.offset = k.offset ∧ l.maxLength = k.maxLength := by
    cases slot with
    | none =>
      obtain ⟨run, rfl, rfl⟩ := Lease.place?_eq_run.1 place
      obtain ⟨run', chunk_eq, page_eq⟩ := Lease.place?_eq_run.1 place'
      obtain ⟨c, held, id, -, -, offset, size⟩ := h.of_run W run
      obtain ⟨d, held', id', -, -, offset', size'⟩ := h'.of_run W run'
      have cd := W.eq_of_id held held' (by rw [id, id', chunk_eq])
      subst cd
      rw [offset, size, offset', size', chunk_eq, page_eq]
      exact ⟨rfl, rfl, rfl⟩
    | some j =>
      obtain ⟨part, rfl, rfl⟩ := Lease.place?_eq_slot.1 place
      obtain ⟨part', chunk_eq, page_eq⟩ := Lease.place?_eq_slot.1 place'
      obtain ⟨x, s, hs, bears, -, offset, size⟩ := h.of_slot W part
      obtain ⟨y, u, hu, bears', -, offset', size'⟩ := h'.of_slot W part'
      have xy := W.eq_of_page (active?_eq_some.1 hs).1 (active?_eq_some.1 hu).1
        (by rw [bears.chunk, bears'.chunk, chunk_eq]) (by rw [bears.page, bears'.page, page_eq])
      subst xy
      cases hs.symm.trans hu
      rw [offset, size, offset', size', chunk_eq, page_eq]
      exact ⟨rfl, rfl, rfl⟩
  obtain ⟨r, location⟩ := Lease.pooled_of_place? place
  obtain ⟨r', location'⟩ := Lease.pooled_of_place? place'
  have memory := h.memory_eq W h' location location' figures.1
  rcases apart with other | before | after
  · exact absurd memory other
  · omega
  · omega

/-- What is leased out does not depend on counts and contents. -/
theorem SameCarving.lent (h : a.SameCarving a') : a'.Lent q ↔ a.Lent q := by
  unfold Lent Plain
  rw [h.starts, h.active?]

end Arena

namespace Pool

variable {p p' : Pool} {l : Lease} {i j : CoreId} {q : Place}

/-- The leases of all cores. -/
def leases (p : Pool) : List Lease :=
  (List.range p.store.cores.size).filterMap fun i => (p.core i).lease

theorem mem_leases : l ∈ p.leases ↔ ∃ i, (p.core i).lease = some l := by
  rw [leases, List.mem_filterMap]
  exact exists_congr fun i => and_iff_right_of_imp fun lease => List.mem_range.2 (lt_size_of_bound lease)

theorem Wf.backs (W : p.Wf) (h : l ∈ p.leases) : p.arena.Backs l := by
  obtain ⟨i, lease⟩ := mem_leases.1 h
  exact W.held i l lease

theorem Wf.pairwise_leases (W : p.Wf) : p.leases.Pairwise Lease.Apart :=
  List.pairwise_filterMap.2
    (List.nodup_range.imp fun ne l lease k lease' => W.apart _ _ l k ne lease lease')

/-- The active leases are the pooled ones. -/
theorem Wf.activeLeases_eq (W : p.Wf) : p.arena.activeLeases = p.leases.countP Lease.isPooled := by
  have count : ∀ n, ∑ i ∈ Finset.range n, (p.core i).pooled =
      ((List.range n).filterMap fun i => (p.core i).lease).countP Lease.isPooled := fun n => by
    induction n with
    | zero => rfl
    | succ n ih =>
      rw [Finset.sum_range_succ, ih, List.range_succ, List.filterMap_append, List.countP_append]
      congr 1
      cases lease : (p.core n).lease with
      | none => simp [Core.pooled_none lease, lease]
      | some l => by_cases own : l.location = .unpooled <;>
          simp [Core.pooled_eq lease, lease, Lease.isPooled, own]
  exact W.counted.trans (count _)

/-! ## Claims -/

/-- Everything that is leased out is leased to some core. -/
def Claimed (p : Pool) : Prop :=
  ∀ q, p.arena.Lent q → ∃ i r, (p.core i).region? = some r ∧ r.place? = some q

/-- The place of a lease that a core gets is claimed, and what was claimed stays so. -/
theorem Claimed.turn (W : p.Wf) (turn : p.Turn p') (claimed : p.Claimed) : p'.Claimed := by
  intro q lent
  cases turn with
  | rests turn =>
    obtain ⟨i, r, region, place⟩ := claimed q (turn.arena.lent.1 lent)
    exact ⟨i, r, (turn.regions i).trans region, place⟩
  | @gains id l turn =>
    rcases turn.adds.carves.lent lent with old | mine
    · obtain ⟨i, r, region, place⟩ := claimed q old
      refine ⟨i, r, (turn.others i ?_).trans region, place⟩
      intro equal
      rw [equal, Core.region?_none turn.free] at region
      cases region
    · exact ⟨id, l.region, Core.region?_eq turn.mine, mine⟩
  | @loses id l turn =>
    obtain ⟨old, other⟩ := turn.removes.uncarves.lent W.arena lent
    obtain ⟨i, r, region, place⟩ := claimed q old
    refine ⟨i, r, (turn.others i ?_).trans region, place⟩
    intro equal
    rw [equal, Core.region?_eq turn.bound] at region
    cases region
    exact other place
  | @exchanges id old new turn =>
    obtain ⟨a, wf, adds, removes⟩ := turn.between
    obtain ⟨between, other⟩ := removes.uncarves.lent wf lent
    rcases adds.carves.lent between with first | mine
    · obtain ⟨i, r, region, place⟩ := claimed q first
      refine ⟨i, r, (turn.others i ?_).trans region, place⟩
      intro equal
      rw [equal, Core.region?_eq turn.bound] at region
      cases region
      exact other place
    · exact ⟨id, new.region, turn.mine, mine⟩

/-- Without chunks nothing is leased out. -/
theorem claimed_of_empty (W : p.Wf) (none : p.arena.chunks = #[]) : p.Claimed := by
  have absent : ∀ c, c ∉ p.arena.chunks := fun c held => Array.not_mem_empty c (none ▸ held)
  intro ⟨chunk, page, slot⟩ lent
  cases slot with
  | none =>
    obtain ⟨⟨c, held, -⟩, -⟩ := lent
    exact absurd held (absent c)
  | some k =>
    obtain ⟨x, s, hs, -⟩ := lent
    obtain ⟨c, held, -⟩ := W.arena.recorded x s (Arena.active?_eq_some.1 hs).1
    exact absurd held (absent c)

/-- A lease for each place that is leased out. -/
theorem Claimed.lease (claimed : p.Claimed) (lent : p.arena.Lent q) :
    ∃ l ∈ p.leases, l.place? = some q := by
  obtain ⟨i, r, region, place⟩ := claimed q lent
  obtain ⟨l, lease, rfl⟩ := Core.region?_eq_some.1 region
  exact ⟨l, mem_leases.2 ⟨i, lease⟩, place⟩

/-! ## Pages -/

/-- A lease of whole pages is a run of its chunk, and it is not empty. -/
theorem Wf.of_run (W : p.Wf) (mem : l ∈ p.leases) (run : l.isRun = true) :
    ∃ c ∈ p.arena.chunks, c.chunk.id = l.chunk.id ∧ p.arena.Plain l.chunk.id l.page ∧
      0 < c.pages.run l.page ∧ 0 < l.maxLength ∧ l.maxLength / p.config.pageSize = c.pages.run l.page := by
  obtain ⟨c, held, id, starts, plain, -, size⟩ := (W.backs mem).of_run W.arena run
  have least := W.arena.config.le_pageSize
  have positive : 0 < p.config.pageSize := Nat.lt_of_lt_of_le (by decide) least
  rw [size]
  exact ⟨c, held, id, plain, starts, Nat.mul_pos starts positive, Nat.mul_div_cancel _ positive⟩

/-- Leases of whole pages are different runs. -/
theorem Wf.nodup_runs (W : p.Wf) :
    ((p.leases.filter Lease.isRun).map (Lease.asRun p.config.pageSize)).Nodup := by
  refine List.pairwise_map.2 (List.Pairwise.imp_of_mem ?_ (W.pairwise_leases.filter _))
  intro l k hl hk apart same
  obtain ⟨hl, run⟩ := List.mem_filter.1 hl
  obtain ⟨hk, run'⟩ := List.mem_filter.1 hk
  obtain ⟨-, -, -, -, -, some, -⟩ := W.of_run hl run
  rw [Lease.asRun, Lease.asRun, Run.mk.injEq] at same
  refine Nat.ne_of_gt some ((W.backs hl).empty_of_place W.arena (W.backs hk) apart
    (Lease.place?_eq_run.2 ⟨run, rfl, rfl⟩) (Lease.place?_eq_run.2 ⟨run', ?_, ?_⟩))
  · exact same.1.symm
  · exact same.2.1.symm

/-- A run of a chunk is a carved page, or a lease of whole pages. -/
theorem Claimed.mem_runs (W : p.Wf) (claimed : p.Claimed) {r : Run} : r ∈ p.arena.runs ↔
    r ∈ p.arena.actives.map Subpage.asRun ∨
      r ∈ (p.leases.filter Lease.isRun).map (Lease.asRun p.config.pageSize) := by
  obtain ⟨chunk, page, length⟩ := r
  rw [Arena.mem_runs W.arena]
  simp only
  constructor
  · rintro ⟨c, held, rfl, rfl, positive⟩
    -- Where no page is carved, the run is leased out as a whole, so a core has claimed it.
    by_cases plain : p.arena.Plain c.chunk.id page
    · right
      obtain ⟨l, mem, place⟩ := claimed.lease (q := ⟨c.chunk.id, page, none⟩)
        ⟨(Arena.mem_starts W.arena held).2 positive, plain⟩
      obtain ⟨run, id, rfl⟩ := Lease.place?_eq_run.1 place
      obtain ⟨d, held', id', -, -, -, length⟩ := W.of_run mem run
      have same := W.arena.eq_of_id held held' (id.symm.trans id'.symm)
      subst same
      refine List.mem_map.2 ⟨l, List.mem_filter.2 ⟨mem, run⟩, ?_⟩
      rw [Lease.asRun, id, length]
    · left
      unfold Arena.Plain at plain
      push Not at plain
      obtain ⟨x, s, hs, id, rfl⟩ := plain
      obtain ⟨named, active⟩ := Arena.active?_eq_some.1 hs
      have carved := W.arena.carved_of_get? named held id.symm
      obtain ⟨-, -, one⟩ := W.arena.of_carved held carved named
      refine List.mem_map.2 ⟨s, (Arena.mem_actives W.arena).2 ⟨x, hs⟩, ?_⟩
      rw [Subpage.asRun, id, one active]
  · rintro (carved | leased)
    · obtain ⟨s, mem, same⟩ := List.mem_map.1 carved
      cases same
      obtain ⟨x, hs⟩ := (Arena.mem_actives W.arena).1 mem
      obtain ⟨named, active⟩ := Arena.active?_eq_some.1 hs
      obtain ⟨c, held, id, carved⟩ := W.arena.recorded x s named
      obtain ⟨-, -, one⟩ := W.arena.of_carved held carved named
      exact ⟨c, held, id, one active, Nat.one_pos⟩
    · obtain ⟨l, mem, same⟩ := List.mem_map.1 leased
      cases same
      obtain ⟨mem, run⟩ := List.mem_filter.1 mem
      obtain ⟨c, held, id, -, starts, -, length⟩ := W.of_run mem run
      exact ⟨c, held, id, length.symm, length ▸ starts⟩

/-- The pages in use are the carved ones and those of the leases of whole pages. -/
theorem Claimed.usedPages_eq (W : p.Wf) (claimed : p.Claimed) :
    p.arena.usedPages = .ok (p.arena.actives.length +
      ((p.leases.filter Lease.isRun).map fun l => l.maxLength / p.config.pageSize).sum) := by
  have perm : p.arena.runs.Perm (p.arena.actives.map Subpage.asRun ++
      (p.leases.filter Lease.isRun).map (Lease.asRun p.config.pageSize)) := by
    refine (List.perm_ext_iff_of_nodup (Arena.nodup_runs W.arena) ?_).2 fun r => ?_
    · refine List.nodup_append'.2 ⟨Arena.nodup_asRun W.arena, W.nodup_runs, fun r carved leased => ?_⟩
      obtain ⟨s, mem, rfl⟩ := List.mem_map.1 carved
      obtain ⟨l, mem', same⟩ := List.mem_map.1 leased
      obtain ⟨x, hs⟩ := (Arena.mem_actives W.arena).1 mem
      obtain ⟨mem', run⟩ := List.mem_filter.1 mem'
      obtain ⟨-, -, -, plain, -⟩ := W.of_run mem' run
      rw [Lease.asRun, Subpage.asRun, Run.mk.injEq] at same
      exact plain x s hs same.1.symm same.2.1.symm
    · rw [List.mem_append]
      exact claimed.mem_runs W
  rw [Arena.usedPages_eq W.arena, (perm.map Run.length).sum_eq, List.map_append, List.sum_append,
    List.map_map, List.map_map]
  have ones : p.arena.actives.map (Run.length ∘ Subpage.asRun) = p.arena.actives.map fun _ => 1 := rfl
  rw [ones, List.map_const', List.sum_replicate_nat, Nat.mul_one]
  rfl

/-! ## Slots -/

/-- The leases of slots of a page. -/
def leasesOn (p : Pool) (chunk page : Nat) : List Lease := p.leases.filter (Lease.isSlotOf chunk page)

theorem mem_leasesOn {chunk page : Nat} : l ∈ p.leasesOn chunk page ↔
    l ∈ p.leases ∧ l.chunk.id = chunk ∧ l.page = page ∧ ∃ k, l.slot? = some k := by
  rw [leasesOn, List.mem_filter, Lease.isSlotOf, Bool.and_eq_true, decide_eq_true_iff,
    Option.isSome_iff_exists, and_assoc]

variable {x : SubpageId} {s : Subpage}

/-- A lease for each slot that is marked. -/
theorem Claimed.slot (claimed : p.Claimed) (hs : p.arena.active? x = some s) {k : Nat}
    (mem : k ∈ s.leased) : ∃ l ∈ p.leasesOn s.chunk s.page.toNat, l.slot? = some k := by
  obtain ⟨l, leased, place⟩ := claimed.lease (q := ⟨s.chunk, s.page.toNat, some k⟩)
    ⟨x, s, hs, rfl, rfl, mem⟩
  obtain ⟨slot, chunk, page⟩ := Lease.place?_eq_slot.1 place
  exact ⟨l, mem_leasesOn.2 ⟨leased, chunk, page, k, slot⟩, slot⟩

/-- Without pooled leases no slot is marked. -/
theorem Claimed.idle (claimed : p.Claimed) (none : ∀ l ∈ p.leases, l.isPooled = false)
    (hs : p.arena.active? x = some s) : s.leased = ∅ :=
  Finset.eq_empty_of_forall_notMem fun k mem => by
    obtain ⟨l, leased, slot⟩ := claimed.slot hs mem
    have pooled := Lease.isPooled_iff.2 (Lease.pooled_of_slot? slot)
    rw [none l (mem_leasesOn.1 leased).1] at pooled
    cases pooled

/-- A lease on a carved page is one of its slots. -/
theorem Wf.of_leasesOn (W : p.Wf) (hs : p.arena.active? x = some s)
    (mem : l ∈ p.leasesOn s.chunk s.page.toNat) :
    l.maxLength = s.slotSize ∧ ∃ k, l.slot? = some k ∧ s.Lends k := by
  obtain ⟨mem, chunk, page, k, slot⟩ := mem_leasesOn.1 mem
  obtain ⟨y, u, hu, bears, lends, -, size⟩ := (W.backs mem).of_slot W.arena slot
  have here := W.arena.eq_of_page (Arena.active?_eq_some.1 hs).1 (Arena.active?_eq_some.1 hu).1
    (bears.chunk.trans chunk) (bears.page.trans page)
  subst here
  cases hs.symm.trans hu
  exact ⟨size, k, slot, lends⟩

/-- The leases on a page with slots of some size have different slots. -/
theorem Wf.pairwise_leasesOn (W : p.Wf) (hs : p.arena.active? x = some s) (some : s.slotSize ≠ 0) :
    (p.leasesOn s.chunk s.page.toNat).Pairwise fun l k => l.slot? ≠ k.slot? := by
  refine List.Pairwise.imp_of_mem ?_ (W.pairwise_leases.filter _)
  intro l k hl hk apart same
  obtain ⟨size, j, slot, -⟩ := W.of_leasesOn hs hl
  obtain ⟨memL, chunk, page, -⟩ := mem_leasesOn.1 hl
  obtain ⟨memK, chunk', page', -⟩ := mem_leasesOn.1 hk
  refine some (size.symm.trans ((W.backs memL).empty_of_place W.arena (W.backs memK) apart
    (Lease.place?_eq_slot.2 ⟨slot, chunk, page⟩) (Lease.place?_eq_slot.2 ⟨?_, chunk', page'⟩)))
  exact same ▸ slot

/-- The slots that a page has marked are those of the leases on it. -/
theorem Claimed.perm_leasesOn (W : p.Wf) (claimed : p.Claimed) (hs : p.arena.active? x = some s)
    (some : s.slotSize ≠ 0) :
    ((p.leasesOn s.chunk s.page.toNat).map Lease.slot?).Perm (s.leased.toList.map Option.some) := by
  refine (List.perm_ext_iff_of_nodup (List.pairwise_map.2 (W.pairwise_leasesOn hs some)) ?_).2
    fun o => ?_
  · exact s.leased.nodup_toList.map (Option.some_injective _)
  · rw [List.mem_map, List.mem_map]
    constructor
    · rintro ⟨l, mem, rfl⟩
      obtain ⟨-, k, slot, lends⟩ := W.of_leasesOn hs mem
      exact ⟨k, Finset.mem_toList.2 (lends.mem some), slot.symm⟩
    · rintro ⟨k, mem, rfl⟩
      obtain ⟨l, leased, slot⟩ := claimed.slot hs (Finset.mem_toList.1 mem)
      exact ⟨l, leased, slot⟩

/-- The slots of a page that are not free are as many as the leases on it. -/
theorem Claimed.length_leasesOn (W : p.Wf) (claimed : p.Claimed) (hs : p.arena.active? x = some s)
    (some : s.slotSize ≠ 0) :
    s.available + (p.leasesOn s.chunk s.page.toNat).length = s.slots := by
  have count := (claimed.perm_leasesOn W hs some).length_eq
  rw [List.length_map, List.length_map, Finset.length_toList] at count
  rw [count]
  exact (W.arena.table.subpages x s (Arena.active?_eq_some.1 hs).1).account

end Pool

end BufferPool
