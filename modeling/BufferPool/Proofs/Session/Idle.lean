import BufferPool.Proofs.Session.Pages

/-!
# Pages that lie idle

A carved page without leases is kept only as the last one of its slot size, and only if the pool is told to
keep it. Slots of no size are never all leased, so the page that was carved for them serves every later
request of size zero: a run carves one at most (`Session.carvings`).
-/

namespace BufferPool

/-- Whether no slot is marked as leased. -/
def Subpage.isIdle (s : Subpage) : Bool := (List.range s.slots).all fun k => !s.marked k

theorem Subpage.isIdle_iff {s : Subpage} : s.isIdle = true ↔ s.leased = ∅ := by
  rw [isIdle, List.all_eq_true, Finset.eq_empty_iff_forall_notMem]
  refine forall_congr' fun k => ?_
  rw [List.mem_range, mem_leased, not_and, Bool.not_eq_true, Bool.not_eq_true']

namespace Arena

variable {a a' : Arena} {l : Lease} {x : SubpageId} {s : Subpage} {size : Nat} {seen : Finset Nat}

/-- The carved pages of a slot size. -/
def carvedPages (a : Arena) (size : Nat) : List SubpageId :=
  a.subpages.filter fun x => (a.active? x).any fun s => s.slotSize == size

/-- The carved pages of a slot size that have no leases. -/
def idlePages (a : Arena) (size : Nat) : List SubpageId :=
  (a.carvedPages size).filter fun x => (a.active? x).any Subpage.isIdle

theorem mem_carvedPages (W : a.Wf) :
    x ∈ a.carvedPages size ↔ ∃ s, a.active? x = some s ∧ s.slotSize = size := by
  rw [carvedPages, List.mem_filter, Option.any_eq_true, W.mem_subpages]
  constructor
  · rintro ⟨-, s, hs, e⟩
    exact ⟨s, hs, beq_iff_eq.1 e⟩
  · intro ⟨s, hs, e⟩
    exact ⟨⟨s, (active?_eq_some.1 hs).1⟩, s, hs, beq_iff_eq.2 e⟩

theorem mem_idlePages (W : a.Wf) :
    x ∈ a.idlePages size ↔ ∃ s, a.active? x = some s ∧ s.slotSize = size ∧ s.leased = ∅ := by
  rw [idlePages, List.mem_filter, mem_carvedPages W, Option.any_eq_true]
  constructor
  · intro ⟨⟨s, hs, e⟩, u, hu, idle⟩
    cases hs.symm.trans hu
    exact ⟨s, hs, e, Subpage.isIdle_iff.1 idle⟩
  · intro ⟨s, hs, e, idle⟩
    exact ⟨⟨s, hs, e⟩, s, hs, Subpage.isIdle_iff.2 idle⟩

theorem nodup_carvedPages (W : a.Wf) (size : Nat) : (a.carvedPages size).Nodup := W.nodup_subpages.filter _

/-- All slots of no size lie on idle pages. -/
theorem idlePages_zero (W : a.Wf) : a.idlePages 0 = a.carvedPages 0 := by
  refine List.filter_eq_self.2 fun x mem => ?_
  obtain ⟨s, hs, zero⟩ := (mem_carvedPages W).1 mem
  rw [hs]
  exact Subpage.isIdle_iff.2 (W.idle_of_sizeless hs zero)

namespace Thrift

/-- No two idle pages have slots of one size. -/
theorem length_idlePages_le (T : a.Thrift seen) (W : a.Wf) (size : Nat) : (a.idlePages size).length ≤ 1 := by
  have once : (a.idlePages size).Nodup := (nodup_carvedPages W size).filter _
  rw [← List.toFinset_card_of_nodup once]
  refine Finset.card_le_one.2 fun x hx y hy => ?_
  obtain ⟨s, hs, e, idle⟩ := (mem_idlePages W).1 (List.mem_toFinset.1 hx)
  obtain ⟨u, hu, e', idle'⟩ := (mem_idlePages W).1 (List.mem_toFinset.1 hy)
  exact T.alone x y s u hs hu idle idle' (e.trans e'.symm)

/-- Unless the last pages are kept, a page that lies idle has slots of no size. -/
theorem idlePages_eq_nil (T : a.Thrift seen) (W : a.Wf) (gives : a.table.keepLast = false) (some : size ≠ 0) :
    a.idlePages size = [] := by
  refine List.eq_nil_iff_forall_not_mem.2 fun x mem => some ?_
  obtain ⟨s, hs, e, idle⟩ := (mem_idlePages W).1 mem
  exact e.symm.trans (T.sizeless gives x s hs idle)

end Thrift

/-- A page with slots of no size stays carved when another page changes, or when it keeps the size. -/
theorem stays_carved_of_update {y : SubpageId} {o : Option Subpage} (hs : a.active? x = some s)
    (zero : s.slotSize = 0) (active : a'.active? = Function.update a.active? y o)
    (same : x = y → ∃ u, o = some u ∧ u.slotSize = 0) : ∃ u, a'.active? x = some u ∧ u.slotSize = 0 := by
  rw [active]
  by_cases here : x = y
  · rw [here, Function.update_self]
    exact same here
  · rw [Function.update_of_ne here]
    exact ⟨s, hs, zero⟩

/-- A page with slots of no size stays carved when a lease is granted. -/
theorem Adds.stays_carved (h : a.Adds l a') (hs : a.active? x = some s) (zero : s.slotSize = 0) :
    ∃ u, a'.active? x = some u ∧ u.slotSize = 0 := by
  cases h.carves with
  | own _ _ active => exact ⟨s, active ▸ hs, zero⟩
  | run _ _ _ active => exact ⟨s, active ▸ hs, zero⟩
  | listed _ _ _ was leases _ active =>
    refine stays_carved_of_update hs zero active ?_
    rintro rfl
    cases was.symm.trans hs
    exact ⟨_, rfl, leases.same.slotSize.trans zero⟩
  | fresh _ _ _ was _ _ _ _ active =>
    refine stays_carved_of_update hs zero active ?_
    rintro rfl
    cases was.symm.trans hs

/-- A page with slots of no size stays carved when a lease comes back. -/
theorem Removes.stays_carved (h : a.Removes l a') (hs : a.active? x = some s) (zero : s.slotSize = 0) :
    ∃ u, a'.active? x = some u ∧ u.slotSize = 0 := by
  cases h.uncarves with
  | own _ _ active => exact ⟨s, active ▸ hs, zero⟩
  | run _ _ _ active => exact ⟨s, active ▸ hs, zero⟩
  | kept _ _ was regains _ _ active =>
    refine stays_carved_of_update hs zero active ?_
    rintro rfl
    cases was.symm.trans hs
    exact ⟨_, rfl, regains.slotSize.trans zero⟩
  | retired _ _ was regains _ _ active =>
    refine stays_carved_of_update hs zero active ?_
    rintro rfl
    cases was.symm.trans hs
    exact absurd zero (regains.idle rfl).2

end Arena

namespace Pool

variable {p p' : Pool} {x : SubpageId} {s : Subpage}

theorem Turn.stays_carved (t : p.Turn p') (hs : p.arena.active? x = some s) (zero : s.slotSize = 0) :
    ∃ u, p'.arena.active? x = some u ∧ u.slotSize = 0 := by
  cases t with
  | rests turn => exact ⟨s, turn.arena.active? ▸ hs, zero⟩
  | gains turn => exact turn.adds.stays_carved hs zero
  | loses turn => exact turn.removes.stays_carved hs zero
  | exchanges turn =>
    obtain ⟨a, -, adds, removes⟩ := turn.between
    obtain ⟨u, hu, zero⟩ := adds.stays_carved hs zero
    exact removes.stays_carved hu zero

/-- No request gives up a page with slots of no size. -/
theorem Course.carvedPages_subset (c : p.Course p') (W : p.Wf) :
    p.arena.carvedPages 0 ⊆ p'.arena.carvedPages 0 := by
  intro x mem
  have kept := c.invariant (P := fun q => q.Wf ∧ ∃ u, q.arena.active? x = some u ∧ u.slotSize = 0) W
    (fun _ turn ⟨_, _, hu, zero⟩ => ⟨turn.steady.wf, turn.stays_carved hu zero⟩)
    ⟨W, (Arena.mem_carvedPages W.arena).1 mem⟩
  exact (Arena.mem_carvedPages kept.1.arena).2 kept.2

end Pool

namespace Session

variable {s : Session} {size : Nat}

/-- How many pages are carved for a slot size over a row of sessions: those that a session has and the one
before it has not. For slots of no size none is missed, since no turn of a request gives up such a page
(`Pool.Turn.stays_carved`). -/
def carvings (size : Nat) : (all : List Session) → Nat
  | s :: s' :: rest =>
    let before := s.pool.arena.carvedPages size
    ((s'.pool.arena.carvedPages size).filter (· ∉ before)).length + carvings size (s' :: rest)
  | _ => 0

/-- As long as no page is given up, the pages that are carved are all there. -/
theorem carvings_le {n : Nat} : ∀ {s : Session} {rest : List Session},
    ((s :: rest).Pairwise fun x y => x.pool.arena.carvedPages size ⊆ y.pool.arena.carvedPages size) →
    (∀ x ∈ s :: rest, (x.pool.arena.carvedPages size).Nodup ∧
      (x.pool.arena.carvedPages size).length ≤ n) →
    carvings size (s :: rest) + (s.pool.arena.carvedPages size).length ≤ n
  | s, [], _, each => by
    have none : carvings size [s] = 0 := rfl
    rw [none, Nat.zero_add]
    exact (each s List.mem_cons_self).2
  | s, s' :: rest, stay, each => by
    obtain ⟨first, later⟩ := List.pairwise_cons.1 stay
    have others := carvings_le later fun x mem => each x (List.mem_cons_of_mem _ mem)
    -- The pages of the first session are among those of the second, which has the new ones besides.
    have old : (s.pool.arena.carvedPages size).length ≤
        ((s'.pool.arena.carvedPages size).filter (· ∈ s.pool.arena.carvedPages size)).length :=
      ((each s List.mem_cons_self).1.subperm fun x mem =>
        List.mem_filter.2 ⟨first s' List.mem_cons_self mem, decide_eq_true mem⟩).length_le
    have split := List.length_eq_length_filter_add (l := s'.pool.arena.carvedPages size)
      (· ∈ s.pool.arena.carvedPages size)
    simp only [carvings, decide_not] at others ⊢
    omega

section

variable {config : PoolConfig} {supply : Supply} {pool : Pool} {commands : List Command}

/-- At every state of a run one page of a slot size lies idle at most, and none if no page is kept; and for
slots of no size one page is carved at most. -/
theorem play_idle_pages_bounded (created : Pool.createOn supply config = .ok pool)
    (lossless : config.pageSize * 2 ^ config.maxOrder < Word.bound)
    (isPublic : ∀ command ∈ commands, command.isPublic = true) :
    ((ofPool pool).stages commands).Yields fun all =>
      (∀ s ∈ all, ∀ size ≠ 0,
        (s.pool.arena.idlePages size).length ≤ if config.keepLastSubpage then 1 else 0) ∧
      carvings 0 all ≤ 1 := by
  have S := sound_ofPool created lossless
  obtain ⟨-, rfl⟩ := eq_ofConfig created
  have T := (claimed_ofConfig S.wf.pool).2
  apply (stages_yields S commands isPublic).mono
  intro all ⟨last, _, trail⟩
  have each := trail.forall_mem (P := fun p => (∃ seen, p.Thrift seen) ∧ p.config = config)
    (fun W turn ⟨⟨_, T⟩, same⟩ => ⟨⟨_, T.turn W turn⟩, turn.steady.config.trans same⟩) ⟨⟨∅, T⟩, rfl⟩
  constructor
  · intro s mem size some
    obtain ⟨sound, ⟨seen, T⟩, same⟩ := each s mem
    split
    · exact T.arena.length_idlePages_le sound.wf.pool.arena size
    · rename_i gives
      rw [T.arena.idlePages_eq_nil sound.wf.pool.arena ?_ some, List.length_nil]
      rw [T.keepLast, same]
      exact Bool.eq_false_of_not_eq_true gives
  · have stay := trail.pairwise (R := fun p p' => p.arena.carvedPages 0 ⊆ p'.arena.carvedPages 0)
      List.Subset.trans fun W course => course.carvedPages_subset W
    obtain ⟨rest, rfl⟩ := trail.head
    refine Nat.le_trans (Nat.le_add_right ..) (carvings_le stay fun s mem => ?_)
    obtain ⟨sound, ⟨seen, T⟩, -⟩ := each s mem
    refine ⟨Arena.nodup_carvedPages sound.wf.pool.arena 0, ?_⟩
    rw [← Arena.idlePages_zero sound.wf.pool.arena]
    exact T.arena.length_idlePages_le sound.wf.pool.arena 0

/-- The default configuration, two buffers without bytes, and one of a slot size that is dropped. -/
theorem play_idle_pages_bounded_default :
    ((ofPool (.ofConfig {} .full)).stages [.buffer 0 0, .buffer 1 100, .drop 0, .drop 1, .buffer 2 0]).Yields
      fun all => (∀ s ∈ all, ∀ size ≠ 0, (s.pool.arena.idlePages size).length ≤
        if ({} : PoolConfig).keepLastSubpage then 1 else 0) ∧ carvings 0 all ≤ 1 :=
  play_idle_pages_bounded (show Pool.createOn .full {} = .ok (.ofConfig {} .full) from rfl) (by decide)
    (by decide)

end

end Session

end BufferPool
