import BufferPool.Proofs.Arena.Figures
import BufferPool.Proofs.Arena.Lease

/-!
# The lists of slot sizes

The list of a slot size holds the carved pages of the size that have room for another lease
(`Arena.openPages`), each once, and no others; a page that is full or given back is in no list. A request
that is served from slots takes no new page as long as its list has a member (`Arena.ListsExact`).
-/

namespace BufferPool

/-- Whether a carved page has room for another lease: a free slot, or slots of no size. -/
def Subpage.hasRoom (s : Subpage) : Bool :=
  s.active && (s.slotSize == 0 || (List.range s.slots).any fun k => !s.marked k)

/-- A page has room if it offers a slot. -/
theorem Subpage.Wf.hasRoom_iff {s : Subpage} (wf : s.Wf) : s.hasRoom = true ↔ s.Offers := by
  have account := wf.account
  rw [hasRoom, Bool.and_eq_true, Bool.or_eq_true, beq_iff_eq, List.any_eq_true]
  constructor
  · rintro ⟨active, zero | ⟨k, inside, free⟩⟩
    · exact ⟨active, .inl zero⟩
    · refine ⟨active, .inr (Nat.pos_of_ne_zero fun none => ?_)⟩
      have all : s.leased = Finset.range s.slots :=
        Finset.eq_of_subset_of_card_le (Finset.filter_subset ..) (by rw [Finset.card_range]; omega)
      have mem : k ∈ s.leased := all ▸ Finset.mem_range.2 (List.mem_range.1 inside)
      rw [(Subpage.mem_leased.1 mem).2] at free
      cases free
  · rintro ⟨active, zero | some⟩
    · exact ⟨active, .inl zero⟩
    · obtain ⟨k, inside, free⟩ := wf.exists_free some
      exact ⟨active, .inr ⟨k, List.mem_range.2 inside, by rw [free]; rfl⟩⟩

namespace Arena

open Size

variable {a : Arena} {s : Subpage} {x : SubpageId} {size capacity : Nat}

/-- The carved pages of a slot size that have room for another lease. -/
def openPages (a : Arena) (size : Nat) : List SubpageId :=
  a.subpages.filter fun x => (a.table.get? x).any fun s => s.hasRoom && s.slotSize == size

theorem mem_openPages (W : a.Wf) :
    x ∈ a.openPages size ↔ ∃ s, a.table.get? x = some s ∧ s.Offers ∧ s.slotSize = size := by
  rw [openPages, List.mem_filter, W.mem_subpages]
  constructor
  · intro ⟨⟨s, hs⟩, room⟩
    rw [hs, Option.any_some, Bool.and_eq_true, beq_iff_eq, (W.table.subpages x s hs).hasRoom_iff] at room
    exact ⟨s, hs, room⟩
  · intro ⟨s, hs, room⟩
    rw [hs, Option.any_some, Bool.and_eq_true, beq_iff_eq, (W.table.subpages x s hs).hasRoom_iff]
    exact ⟨⟨s, rfl⟩, room⟩

theorem nodup_openPages (W : a.Wf) (size : Nat) : (a.openPages size).Nodup := W.nodup_subpages.filter _

/-- Requests that are rounded to less than a page are served from slots. -/
theorem Wf.served_from_slots (W : a.Wf) (below : a.rounded capacity < a.config.pageSize) :
    IsSlot a.config.pageSize (a.rounded capacity) ∧
      ∃ kind, a.classOf (a.rounded capacity) = .ok kind ∧ kind ≠ .huge ∧ kind ≠ .normal := by
  obtain ⟨kind, class_eq, numbered, cases⟩ := W.config.ofSize_rounded capacity
  have page := W.config.pageSize_le
  have least := le_rounded capacity a.config.chunkSize
  change Size.rounded capacity a.config.chunkSize < _ at below
  rcases cases with ⟨-, above, -⟩ | ⟨-, above, -⟩ | ⟨notHuge, notNormal, slot⟩
  · omega
  · omega
  · exact ⟨slot, kind, classOf_ok class_eq numbered, notHuge, notNormal⟩

/-- The lists hold what they should. -/
structure ListsExact (a : Arena) : Prop where
  /-- The list of a slot size holds the pages that have room, each once, and tells how many they are. -/
  listed : ∀ capacity, a.rounded capacity < a.config.pageSize →
    ∃ head ids, a.listHead (a.rounded capacity) = .ok head ∧ a.table.Ring head ids ∧ ids.Nodup ∧
      ids.Perm (a.openPages (a.rounded capacity)) ∧
      a.freeSubpages capacity = .ok (a.openPages (a.rounded capacity)).length
  /-- A page without room is in no list. -/
  unlisted : ∀ x ∈ a.subpages, ∀ s, a.table.get? x = some s → s.hasRoom = false →
    ∀ head ids, a.table.Ring head ids → x ∉ ids
  /-- As long as a page of a slot size has room, a request for a slot of the size is granted and takes no
  page. -/
  reused : ∀ capacity, a.rounded capacity < a.config.pageSize → a.openPages (a.rounded capacity) ≠ [] →
    (a.lease capacity).Yields fun r => r.1.chunks = a.chunks ∧ ∃ l, r.2 = .ok l

/-- The members of the list of a slot size. -/
theorem Wf.mem_list_iff (W : a.Wf) (slot : IsSlot a.config.pageSize size) :
    (∃ s, a.table.get? x = some s ∧ s.Offers ∧ headOf s.slotSize = headOf size) ↔
      x ∈ a.openPages size := by
  rw [mem_openPages W]
  refine exists_congr fun s => and_congr_right fun hs => and_congr_right fun offers => ?_
  constructor
  · intro head
    exact ((W.subpages x s hs).2.2 offers.active).eq_of_slotIndex slot (congrArg SubpageId.node head)
  · exact congrArg headOf

theorem Wf.freeSubpages_eq (W : a.Wf) (below : a.rounded capacity < a.config.pageSize) :
    a.freeSubpages capacity = .ok (a.openPages (a.rounded capacity)).length := by
  have slot := (W.served_from_slots below).1
  obtain ⟨n, counted, ids, once, rfl, members⟩ := SubpageTable.length_yields W.table (W.isHead slot)
  have perm : ids.Perm (a.openPages (a.rounded capacity)) :=
    (List.perm_ext_iff_of_nodup once (nodup_openPages W _)).2 fun x =>
      (members x).trans (W.mem_list_iff slot)
  rw [freeSubpages, W.listHead?_slot slot, Checked.ok_bind, ← perm.length_eq]
  exact counted

/-- A page without room is not linked to others. -/
theorem Wf.unlisted (W : a.Wf) (hs : a.table.get? x = some s) (full : s.hasRoom = false)
    {head : SubpageId} {ids : List SubpageId} (ring : a.table.Ring head ids) : x ∉ ids := by
  intro mem
  obtain ⟨lists, L, members⟩ := W.table.listed
  have mute : ¬ s.Offers := by
    rw [← (W.table.subpages x s hs).hasRoom_iff, full]
    nofun
  have named : (a.table.get? x).isSome := by rw [hs]; rfl
  have unlinked := L.unlinked named (SubpageTable.free_of_mute members hs mute)
  have linked := (ring.linked (List.mem_cons_of_mem _ mem)).1
  rw [SubpageTable.next?, unlinked] at linked
  cases linked

theorem Wf.reused (W : a.Wf) (below : a.rounded capacity < a.config.pageSize)
    (room : a.openPages (a.rounded capacity) ≠ []) :
    (a.lease capacity).Yields fun r => r.1.chunks = a.chunks ∧ ∃ l, r.2 = .ok l := by
  obtain ⟨slot, kind, class_eq, notHuge, notNormal⟩ := W.served_from_slots below
  have listed : (a.leaseSlot (a.rounded capacity) capacity).Yields fun r =>
      r.1.chunks = a.chunks ∧ ∃ l, r.2 = .ok l := by
    unfold leaseSlot
    refine .bind_ok (W.listHead_ok slot) ((leaseListed?_yields W slot capacity).bind ?_)
    intro outcome found
    rcases outcome with _ | ⟨t, id, locator⟩
    · obtain ⟨x, mem⟩ := List.exists_mem_of_ne_nil _ room
      obtain ⟨s, hs, offers, size⟩ := (mem_openPages W).1 mem
      exact absurd size (found.2 x s (active?_eq_some.2 ⟨hs, offers.active⟩) offers)
    · obtain ⟨-, s, -, granted⟩ := found
      apply granted.bind
      intro l _
      exact Checked.yields_pure.2 ⟨rfl, l, rfl⟩
  unfold lease
  refine .bind_ok class_eq ?_
  rw [grant_slot notHuge notNormal]
  apply listed.bind
  rintro ⟨a', answer⟩ ⟨chunks, l, rfl⟩
  refine Checked.yields_pure.2 ⟨?_, l, rfl⟩
  have same : ((a'.countPooled kind).count (.leased kind)).chunks = a'.chunks := by
    rw [countPooled, if_neg notHuge]
    rfl
  exact same.trans chunks

theorem Wf.listsExact (W : a.Wf) : a.ListsExact where
  listed capacity below := by
    have slot := (W.served_from_slots below).1
    obtain ⟨lists, L, members⟩ := W.table.listed
    have ring := L.ring _ (W.isHead slot)
    refine ⟨_, _, W.listHead_ok slot, ring, ring.nodup, ?_, W.freeSubpages_eq below⟩
    exact (List.perm_ext_iff_of_nodup ring.nodup (nodup_openPages W _)).2 fun x =>
      (members _ (W.isHead slot) x).trans (W.mem_list_iff slot)
  unlisted _ _ _ hs full _ _ ring := W.unlisted hs full ring
  reused _ below room := W.reused below room

end Arena

end BufferPool
