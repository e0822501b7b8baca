import BufferPool.Proofs.Pool.Ledger
import Mathlib.Data.Finset.Option

/-!
# Pages that stay carved

A page whose last slot comes back is given up, unless its slots have no size, or the pool keeps the last
page of a size and no other page of the size offers a slot. So of the pages without leases no two are of one
size, and each size that was ever leased still has a page (`Arena.Thrift`), in whatever order leases come
back.
-/

namespace BufferPool

/-- The slot size that a lease was cut to, none for a lease of whole pages. -/
def Lease.slotSize? (l : Lease) : Option Nat := l.slot?.map fun _ => l.maxLength

namespace Arena

open Size

variable {a a' : Arena} {l : Lease} {x y : SubpageId} {s s' u : Subpage} {seen seen' : Finset Nat}

/-- Which pages are carved, given the slot sizes that were ever leased. -/
structure Thrift (a : Arena) (seen : Finset Nat) : Prop where
  known : ∀ x s, a.active? x = some s → s.slotSize ∈ seen
  stays : ∀ size ∈ seen, size = 0 ∨ a.table.keepLast = true → ∃ x s, a.active? x = some s ∧ s.slotSize = size
  alone : ∀ x y s u, a.active? x = some s → a.active? y = some u → s.leased = ∅ → u.leased = ∅ →
    s.slotSize = u.slotSize → x = y
  sizeless : a.table.keepLast = false → ∀ x s, a.active? x = some s → s.leased = ∅ → s.slotSize = 0

/-- A page without leases offers a slot. -/
theorem Wf.offers_of_idle (W : a.Wf) (hs : a.active? x = some s) (idle : s.leased = ∅) : s.Offers := by
  obtain ⟨named, active⟩ := active?_eq_some.1 hs
  refine ⟨active, Decidable.or_iff_not_imp_left.2 fun some => ?_⟩
  have slots := W.two_le_slots hs some
  have account := (W.table.subpages x s named).account
  rw [idle, Finset.card_empty] at account
  omega

/-- A page with slots of no size has no leases that are counted. -/
theorem Wf.idle_of_sizeless (W : a.Wf) (hs : a.active? x = some s) (zero : s.slotSize = 0) : s.leased = ∅ :=
  Finset.eq_empty_of_forall_notMem fun _ mem =>
    (W.table.subpages x s (active?_eq_some.1 hs).1).size_of_mem mem zero

/-- The slot sizes of the carved pages. -/
def sizes (a : Arena) : Finset Nat := (a.actives.map Subpage.slotSize).toFinset

theorem mem_sizes (W : a.Wf) {n : Nat} : n ∈ a.sizes ↔ ∃ x s, a.active? x = some s ∧ s.slotSize = n := by
  rw [sizes, List.mem_toFinset, List.mem_map]
  constructor
  · intro ⟨s, mem, size⟩
    obtain ⟨x, hs⟩ := (mem_actives W).1 mem
    exact ⟨x, s, hs, size⟩
  · intro ⟨x, s, hs, size⟩
    exact ⟨s, (mem_actives W).2 ⟨x, hs⟩, size⟩

/-- A page that was just leased from is without leases only if its slots have no size. -/
theorem sizeless_of_leases {k : Nat} (h : Subpage.Leases s k s') (idle : s'.leased = ∅) :
    s'.slotSize = 0 := by
  rcases h.lent with ⟨zero, -⟩ | mem
  · exact zero
  · rw [idle] at mem
    exact absurd mem (Finset.notMem_empty k)

namespace Thrift

/-- One page changes, or is carved. -/
theorem update (T : a.Thrift seen) (keepLast : a'.table.keepLast = a.table.keepLast)
    (active : a'.active? = Function.update a.active? x (some s'))
    (same : ∀ s, a.active? x = some s → s'.slotSize = s.slotSize)
    (alone : s'.leased = ∅ → ∀ y u, y ≠ x → a.active? y = some u → u.leased = ∅ → u.slotSize ≠ s'.slotSize)
    (sizeless : a.table.keepLast = false → s'.leased = ∅ → s'.slotSize = 0) :
    a'.Thrift (insert s'.slotSize seen) := by
  have cases : ∀ y u, a'.active? y = some u → y = x ∧ u = s' ∨ y ≠ x ∧ a.active? y = some u := by
    intro y u hu
    rw [active] at hu
    by_cases here : y = x
    · subst here
      rw [Function.update_self] at hu
      exact .inl ⟨rfl, (Option.some.inj hu).symm⟩
    · rw [Function.update_of_ne here] at hu
      exact .inr ⟨here, hu⟩
  have mine : a'.active? x = some s' := by rw [active, Function.update_self]
  refine ⟨fun y u hu => ?_, fun size mem stays => ?_, fun y z u v hu hv idle idle' e => ?_,
    fun gone y u hu idle => ?_⟩
  · rcases cases y u hu with ⟨-, rfl⟩ | ⟨-, old⟩
    · exact Finset.mem_insert_self ..
    · exact Finset.mem_insert_of_mem (T.known y u old)
  · rcases Finset.mem_insert.1 mem with rfl | old
    · exact ⟨x, s', mine, rfl⟩
    · obtain ⟨y, u, hu, rfl⟩ := T.stays size old (keepLast ▸ stays)
      by_cases here : y = x
      · subst here
        exact ⟨y, s', mine, same u hu⟩
      · exact ⟨y, u, by rw [active, Function.update_of_ne here]; exact hu, rfl⟩
  · rcases cases y u hu with ⟨rfl, rfl⟩ | ⟨ne, old⟩
    · rcases cases z v hv with ⟨rfl, -⟩ | ⟨ne', old'⟩
      · rfl
      · exact absurd e.symm (alone idle z v ne' old' idle')
    · rcases cases z v hv with ⟨rfl, rfl⟩ | ⟨-, old'⟩
      · exact absurd e (alone idle' y u ne old idle)
      · exact T.alone y z u v old old' idle idle' e
  · rw [keepLast] at gone
    rcases cases y u hu with ⟨-, rfl⟩ | ⟨-, old⟩
    · exact sizeless gone idle
    · exact T.sizeless gone y u old idle

theorem congr (T : a.Thrift seen) (keepLast : a'.table.keepLast = a.table.keepLast)
    (active : a'.active? = a.active?) : a'.Thrift seen := by
  refine ⟨?_, ?_, ?_, ?_⟩
  · rw [active]; exact T.known
  · rw [active, keepLast]; exact T.stays
  · rw [active]; exact T.alone
  · rw [active, keepLast]; exact T.sizeless

/-- Granting a lease adds its slot size. -/
theorem adds (T : a.Thrift seen) (W : a.Wf) (h : a.Adds l a') : a'.Thrift (l.slotSize?.toFinset ∪ seen) := by
  have keepLast := h.grows.keepLast
  cases h.carves with
  | own location _ active =>
    have none : l.slotSize? = none := by rw [Lease.slotSize?, Lease.slot?, location]; rfl
    rw [none, Option.toFinset_none, Finset.empty_union]
    exact T.congr keepLast active
  | run _ whole _ active =>
    rw [Lease.slotSize?, whole, Option.map_none, Option.toFinset_none, Finset.empty_union]
    exact T.congr keepLast active
  | @listed x s s' k slot _ size was leases _ active =>
    rw [Lease.slotSize?, slot, Option.map_some, Option.toFinset_some, size, ← leases.same.slotSize]
    refine T.update keepLast active (fun u hu => ?_) (fun idle y u ne hu idle' e => ne ?_)
      fun _ => sizeless_of_leases leases
    · cases was.symm.trans hu
      exact leases.same.slotSize
    · have zero := leases.same.slotSize.symm.trans (sizeless_of_leases leases idle)
      exact T.alone y x u s hu was idle' (W.idle_of_sizeless was zero) (e.trans leases.same.slotSize)
  | @fresh x s s' k slot _ size was _ leases needed _ active =>
    rw [Lease.slotSize?, slot, Option.map_some, Option.toFinset_some, size, ← leases.same.slotSize]
    refine T.update keepLast active (fun u hu => ?_) (fun _ y u _ hu idle' e => ?_)
      fun _ => sizeless_of_leases leases
    · rw [was] at hu
      cases hu
    · exact needed y u hu (W.offers_of_idle hu idle') (e.trans leases.same.slotSize)

/-- Taking a lease back leaves a page of each size that needs one. -/
theorem removes (T : a.Thrift seen) (W : a.Wf) (h : a.Removes l a') : a'.Thrift seen := by
  have keepLast := h.shrinks.keepLast
  cases h.uncarves with
  | own _ _ active => exact T.congr keepLast active
  | run _ _ _ active => exact T.congr keepLast active
  | @kept x s s' k _ _ was regains retention _ active =>
    have known := T.known x s was
    rw [← regains.slotSize] at known
    rw [← Finset.insert_eq_of_mem known]
    -- A page that stays without leases is the last one of its size with room, since it has two slots.
    have kept : s'.leased = ∅ → s.slotSize ≠ 0 →
        a.table.keepLast = true ∧ a.table.Alone headOf x s.slotSize := fun idle some =>
      (retention.kept rfl some idle).resolve_left (Nat.ne_of_gt (W.two_le_slots was some))
    refine T.update keepLast active (fun u hu => ?_) (fun idle y u ne hu idle' e => ne ?_) fun gone idle => ?_
    · cases was.symm.trans hu
      exact regains.slotSize
    · have e := e.trans regains.slotSize
      by_cases zero : s.slotSize = 0
      · exact T.alone y x u s hu was idle' (W.idle_of_sizeless was zero) e
      · exact (kept idle zero).2 y u (active?_eq_some.1 hu).1 (W.offers_of_idle hu idle') (congrArg _ e)
    · rw [regains.slotSize]
      by_contra some
      rw [(kept idle some).1] at gone
      cases gone
  | @retired x s s' k _ _ was regains retention _ active =>
    have old : ∀ y u, a'.active? y = some u → a.active? y = some u := by
      intro y u hu
      rw [active] at hu
      by_cases here : y = x
      · subst here
        rw [Function.update_self] at hu
        cases hu
      · rwa [Function.update_of_ne here] at hu
    refine ⟨fun y u hu => T.known y u (old y u hu), fun size mem stays => ?_,
      fun y z u v hu hv => T.alone y z u v (old y u hu) (old z v hv),
      fun gone y u hu => T.sizeless (keepLast ▸ gone) y u (old y u hu)⟩
    rw [keepLast] at stays
    obtain ⟨y, u, hu, rfl⟩ := T.stays size mem stays
    by_cases here : y = x
    · -- The page itself goes, but another one of its size offers a slot.
      subst here
      cases was.symm.trans hu
      have some := (regains.idle rfl).2
      have another := retention.retired rfl (stays.resolve_left some)
      unfold SubpageTable.Alone at another
      push Not at another
      obtain ⟨z, v, hv, offers, head, ne⟩ := another
      have hv := active?_eq_some.2 ⟨hv, offers.active⟩
      refine ⟨z, v, by rw [active, Function.update_of_ne ne]; exact hv, ?_⟩
      exact (W.isSlot hv).eq_of_slotIndex (W.isSlot hu) (congrArg SubpageId.node head)
    · exact ⟨y, u, by rw [active, Function.update_of_ne here]; exact hu, rfl⟩

/-- Without leases no two pages are of one size. -/
theorem length_actives (T : a.Thrift seen) (W : a.Wf)
    (idle : ∀ x s, a.active? x = some s → s.leased = ∅) : a.actives.length = a.sizes.card := by
  have once : (a.actives.map Subpage.slotSize).Nodup :=
    List.pairwise_map.2 (pairwise_actives W fun x y s u ne hs hu e =>
      ne (T.alone x y s u hs hu (idle x s hs) (idle y u hu) e))
  rw [sizes, List.toFinset_card_of_nodup once, List.length_map]

/-- Without leases the sizes of the pages are those that were ever leased and have to stay. -/
theorem sizes_eq (T : a.Thrift seen) (W : a.Wf) (idle : ∀ x s, a.active? x = some s → s.leased = ∅) :
    a.sizes = if a.table.keepLast then seen else seen.filter (· = 0) := by
  ext n
  rw [mem_sizes W]
  constructor
  · rintro ⟨x, s, hs, rfl⟩
    have known := T.known x s hs
    split
    · exact known
    · rename_i gives
      refine Finset.mem_filter.2 ⟨known, T.sizeless ?_ x s hs (idle x s hs)⟩
      exact Bool.eq_false_of_not_eq_true gives
  · intro mem
    split at mem
    · rename_i keeps
      exact T.stays n mem (.inr keeps)
    · obtain ⟨known, zero⟩ := Finset.mem_filter.1 mem
      exact T.stays n known (.inl zero)

end Thrift

end Arena

namespace Pool

variable {p p' : Pool} {l : Lease} {seen : Finset Nat}

/-- The slot sizes that the leases of a pool were cut to. -/
def slotSizes (p : Pool) : Finset Nat := (p.leases.filterMap Lease.slotSize?).toFinset

theorem mem_slotSizes {n : Nat} :
    n ∈ p.slotSizes ↔ ∃ i r, (p.core i).region? = some r ∧ r.slotSize? = some n := by
  rw [slotSizes, List.mem_toFinset, List.mem_filterMap]
  constructor
  · intro ⟨l, mem, size⟩
    obtain ⟨i, lease⟩ := mem_leases.1 mem
    exact ⟨i, l.region, Core.region?_eq lease, size⟩
  · intro ⟨i, r, region, size⟩
    obtain ⟨l, lease, rfl⟩ := Core.region?_eq_some.1 region
    exact ⟨l, mem_leases.2 ⟨i, lease⟩, size⟩

/-- Leases that are kept keep their slot sizes. -/
theorem slotSizes_subset (kept : ∀ i r, (p.core i).region? = some r → (p'.core i).region? = some r) :
    p.slotSizes ⊆ p'.slotSizes := fun n mem => by
  obtain ⟨i, r, region, size⟩ := mem_slotSizes.1 mem
  exact mem_slotSizes.2 ⟨i, r, kept i r region, size⟩

/-- Which pages of a pool are carved, given the slot sizes that were ever leased. -/
structure Thrift (p : Pool) (seen : Finset Nat) : Prop where
  arena : p.arena.Thrift seen
  current : p.slotSizes ⊆ seen
  keepLast : p.arena.table.keepLast = p.config.keepLastSubpage

namespace Thrift

/-- The sizes of the leases that are new have pages, and the others have been seen. -/
theorem of_grown (T : p.Thrift seen) (steady : p.Steady p') {grown : Finset Nat}
    (arena : p'.arena.Thrift (grown ∪ seen)) (keepLast : p'.arena.table.keepLast = p.arena.table.keepLast)
    (new : grown ⊆ p'.slotSizes) (sizes : p'.slotSizes ⊆ grown ∪ p.slotSizes) :
    p'.Thrift (p'.slotSizes ∪ seen) where
  arena := by
    have same : p'.slotSizes ∪ seen = grown ∪ seen := by
      refine Finset.Subset.antisymm (Finset.union_subset (sizes.trans ?_) Finset.subset_union_right) ?_
      · exact Finset.union_subset_union_right T.current
      · exact Finset.union_subset_union_left new
    rw [same]
    exact arena
  current := Finset.subset_union_left
  keepLast := by rw [keepLast, T.keepLast, steady.config]

/-- A lease that a core gets adds its size. -/
theorem of_lease (T : p.Thrift seen) (steady : p.Steady p') {id : CoreId}
    (arena : p'.arena.Thrift (l.slotSize?.toFinset ∪ seen))
    (keepLast : p'.arena.table.keepLast = p.arena.table.keepLast)
    (mine : (p'.core id).region? = some l.region)
    (others : ∀ i, i ≠ id → (p'.core i).region? = (p.core i).region?) :
    p'.Thrift (p'.slotSizes ∪ seen) := by
  refine T.of_grown steady arena keepLast (fun n mem => ?_) fun n mem => ?_
  · exact mem_slotSizes.2 ⟨id, l.region, mine, Option.mem_toFinset.1 mem⟩
  · obtain ⟨i, r, region, size⟩ := mem_slotSizes.1 mem
    by_cases here : i = id
    · rw [here, mine] at region
      cases region
      exact Finset.mem_union_left _ (Option.mem_toFinset.2 size)
    · exact Finset.mem_union_right _ (mem_slotSizes.2 ⟨i, r, others i here ▸ region, size⟩)

/-- If no lease is new, no size is. -/
theorem of_kept (T : p.Thrift seen) (steady : p.Steady p') (arena : p'.arena.Thrift seen)
    (keepLast : p'.arena.table.keepLast = p.arena.table.keepLast)
    (kept : ∀ i r, (p'.core i).region? = some r → (p.core i).region? = some r) :
    p'.Thrift (p'.slotSizes ∪ seen) := by
  have same : ∅ ∪ seen = seen := Finset.empty_union seen
  refine T.of_grown steady (same.symm ▸ arena) keepLast (Finset.empty_subset _) ?_
  rw [Finset.empty_union]
  exact slotSizes_subset kept

theorem turn (T : p.Thrift seen) (W : p.Wf) (turn : p.Turn p') : p'.Thrift (p'.slotSizes ∪ seen) := by
  cases turn with
  | rests turn =>
    exact T.of_kept turn.toSteady (T.arena.congr turn.arena.shrinks.keepLast turn.arena.active?)
      turn.arena.shrinks.keepLast fun i r region => turn.regions i ▸ region
  | gains turn =>
    exact T.of_lease turn.toSteady (T.arena.adds W.arena turn.adds) turn.adds.grows.keepLast
      (Core.region?_eq turn.mine) turn.others
  | @loses id l turn =>
    refine T.of_kept turn.toSteady (T.arena.removes W.arena turn.removes) turn.removes.shrinks.keepLast
      fun i r region => ?_
    have other : i ≠ id := fun here => by
      rw [here, Core.region?_none turn.gone] at region
      cases region
    exact turn.others i other ▸ region
  | exchanges turn =>
    obtain ⟨a, wf, adds, removes⟩ := turn.between
    exact T.of_lease turn.toSteady ((T.arena.adds W.arena adds).removes wf removes)
      (removes.shrinks.keepLast.trans adds.grows.keepLast) turn.mine turn.others

theorem union_slotSizes (T : p.Thrift seen) : p.slotSizes ∪ seen = seen := Finset.union_eq_right.2 T.current

/-- Leases that are granted one after the other are all there at the end. -/
theorem fills (T : p.Thrift seen) (W : p.Wf) (turns : p.Fills p') : p'.Thrift (p'.slotSizes ∪ seen) := by
  have both : p'.Wf ∧ p'.Thrift (p'.slotSizes ∪ seen) := by
    induction turns with
    | refl => exact ⟨W, T.union_slotSizes.symm ▸ T⟩
    | @tail p1 p2 _ turn ih =>
      obtain ⟨wf, T1⟩ := ih
      obtain ⟨-, -, kept⟩ := Fills.returned (.single turn)
      have next : p1.Turn p2 := turn.elim .rests fun ⟨_, _, gain⟩ => .gains gain
      refine ⟨next.steady.wf, ?_⟩
      have T2 := T1.turn wf next
      rwa [← Finset.union_assoc, Finset.union_eq_left.2 (slotSizes_subset kept)] at T2
  exact both.2

/-- Leases that are given up have been seen. -/
theorem drains (T : p.Thrift seen) (W : p.Wf) (turns : p.Drains p') : p'.Thrift seen := by
  have both : p'.Wf ∧ p'.Thrift seen := by
    induction turns with
    | refl => exact ⟨W, T⟩
    | @tail p1 p2 _ turn ih =>
      obtain ⟨wf, T1⟩ := ih
      obtain ⟨-, -, kept⟩ := Drains.returned (.single turn)
      have next : p1.Turn p2 := turn.elim .rests fun ⟨_, _, loss⟩ => .loses loss
      refine ⟨next.steady.wf, ?_⟩
      have T2 := T1.turn wf next
      rwa [Finset.union_eq_right.2 ((slotSizes_subset kept).trans T1.current)] at T2
  exact both.2

/-- A request adds the sizes of the leases that it leaves. -/
theorem course (T : p.Thrift seen) (W : p.Wf) (c : p.Course p') : p'.Thrift (p'.slotSizes ∪ seen) := by
  cases c with
  | fills turns => exact T.fills W turns
  | exchanges turn => exact T.turn W (.exchanges turn)
  | drains turns =>
    have T' := T.drains W turns
    exact T'.union_slotSizes.symm ▸ T'

/-- Without pooled leases each size that needs a page has one, and there are no others. -/
theorem length_actives (T : p.Thrift seen) (W : p.Wf) (claimed : p.Claimed)
    (none : ∀ l ∈ p.leases, l.isPooled = false) : p.arena.actives.length =
      if p.config.keepLastSubpage then seen.card else if 0 ∈ seen then 1 else 0 := by
  have idle : ∀ x s, p.arena.active? x = some s → s.leased = ∅ := fun _ _ => claimed.idle none
  rw [T.arena.length_actives W.arena idle, T.arena.sizes_eq W.arena idle, T.keepLast]
  split
  · rfl
  · rw [Finset.filter_eq']
    split <;> rfl

end Thrift

/-- A pool without chunks has leased nothing. -/
theorem thrift_of_empty (W : p.Wf) (none : p.arena.chunks = #[]) (free : p.leases = [])
    (keepLast : p.arena.table.keepLast = p.config.keepLastSubpage) : p.Thrift ∅ := by
  have absent : ∀ x s, p.arena.active? x ≠ some s := fun x s hs => by
    obtain ⟨c, held, -⟩ := W.arena.recorded x s (Arena.active?_eq_some.1 hs).1
    exact absurd (none ▸ held) (Array.not_mem_empty c)
  refine ⟨⟨fun x s hs => absurd hs (absent x s), nofun, fun x _ s _ hs => absurd hs (absent x s),
    fun _ x s hs => absurd hs (absent x s)⟩, ?_, keepLast⟩
  rw [slotSizes, free]
  rfl

end Pool

end BufferPool
