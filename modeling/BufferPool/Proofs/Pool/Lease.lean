import BufferPool.Proofs.Pool.Course
import BufferPool.Proofs.Pool.Waits
import Mathlib.Algebra.Order.BigOperators.Group.Finset

/-!
# Cores and their leases

The operations that bind, exchange and give up leases. Where one succeeds, it touches a single core and
leaves the rest of the pool as it was (`Pool.Frame`); where one is refused, only the counts of attempts and
the queue of idle cores differ afterwards (`Pool.Unaffected`).
-/

namespace BufferPool

/-- The counters without those that a refused request may change. -/
def Counters.lasting (c : Counters) : Counters :=
  { c with failed := 0, recyclerHits := 0, recyclerMisses := 0 }

/-- Two arenas that differ at most in the counts of attempts. -/
structure Arena.Unaffected (a a' : Arena) : Prop where
  config : a'.config = a.config
  table : a'.table = a.table
  tinyHeads : a'.tinyHeads = a.tinyHeads
  smallHeads : a'.smallHeads = a.smallHeads
  chunks : a'.chunks = a.chunks
  activeLeases : a'.activeLeases = a.activeLeases
  nextChunkId : a'.nextChunkId = a.nextChunkId
  blocks : a'.heap.blocks = a.heap.blocks
  counters : a'.counters.lasting = a.counters.lasting

namespace Arena

variable {a a' a'' : Arena}

theorem Unaffected.refl (a : Arena) : a.Unaffected a := ⟨rfl, rfl, rfl, rfl, rfl, rfl, rfl, rfl, rfl⟩

theorem Unaffected.trans (h : a.Unaffected a') (h' : a'.Unaffected a'') : a.Unaffected a'' where
  config := h'.config.trans h.config
  table := h'.table.trans h.table
  tinyHeads := h'.tinyHeads.trans h.tinyHeads
  smallHeads := h'.smallHeads.trans h.smallHeads
  chunks := h'.chunks.trans h.chunks
  activeLeases := h'.activeLeases.trans h.activeLeases
  nextChunkId := h'.nextChunkId.trans h.nextChunkId
  blocks := h'.blocks.trans h.blocks
  counters := h'.counters.trans h.counters

theorem Unaffected.sameBooks (h : a.Unaffected a') : a.SameBooks a' where
  config := h.config
  table := h.table
  tinyHeads := h.tinyHeads
  smallHeads := h.smallHeads
  chunks := h.chunks
  nextChunkId := h.nextChunkId
  heap := ⟨by rw [h.blocks], fun b => by rw [Heap.get_of_blocks h.blocks]⟩

theorem Unaffected.byteAt (h : a.Unaffected a') (b : BlockId) (i : Nat) :
    a'.heap.byteAt b i = a.heap.byteAt b i := by
  rw [Heap.byteAt, Heap.get_of_blocks h.blocks, Heap.byteAt]

theorem Unaffected.sameLeases (h : a.Unaffected a') : a.SameLeases a' where
  table := h.table
  chunks := h.chunks
  nextChunkId := h.nextChunkId
  config := h.config
  returned := by
    have lasting := congrArg Counters.returned h.counters
    exact lasting

theorem Refused.unaffected (h : a.Refused a') : a.Unaffected (a'.count .failed) := by
  obtain ⟨heap, rfl, blocks⟩ := h
  exact ⟨rfl, rfl, rfl, rfl, rfl, rfl, rfl, blocks, rfl⟩

/-- The length in use is no part of the bookkeeping. -/
theorem Backs.withLength {l : Lease} (b : a.Backs l) (n : Nat) : a.Backs { l with length := n } := by
  cases b with
  | run held chunk location whole starts plain offset size =>
    exact .run held chunk location whole starts plain offset size
  | slot held chunk location part carved named active lent offset size =>
    exact .slot held chunk location part carved named active lent offset size
  | own location unpooled named inside memory apart offset size =>
    exact .own location unpooled named inside memory apart offset size

/-- A lease that the bookkeeping accounts for passes the checks of binding. -/
theorem Backs.bind_ok {l : Lease} (W : a.Wf) (b : a.Backs l) (fits : l.length ≤ l.maxLength) {c : Core}
    (free : c.lease = none) : c.bind l = .ok { c with lease := some l } := by
  obtain ⟨region, -, size⟩ := b.fits W
  have limit := W.bounded l.chunk.memory
  rw [size] at limit
  have small : l.offset + l.maxLength < Word.bound :=
    Memory.lt_bound (Nat.lt_of_le_of_lt region limit)
  have check : l.check = .ok () := by
    unfold Lease.check
    rw [Checked.guard_ok (by simpa using fits), Checked.ok_bind, Word.add_ok small, Checked.ok_bind]
    exact Checked.guard_ok (by simpa using region)
  have unbound : Checked.guard (!c.isBound) .alreadyBound = .ok () :=
    Checked.guard_ok (by simp [Core.isBound, free])
  unfold Core.bind
  cases b with
  | run held chunk location =>
    rw [location]
    simp only
    rw [Checked.guard_ok (by rw [chunk, (W.chunks _ held).pooled]; rfl), Checked.ok_bind, unbound,
      Checked.ok_bind, check]
    rfl
  | slot held chunk location =>
    rw [location]
    simp only
    rw [Checked.guard_ok (by rw [chunk, (W.chunks _ held).pooled]; rfl), Checked.ok_bind, unbound,
      Checked.ok_bind, check]
    rfl
  | own location unpooled =>
    rw [location]
    simp only
    rw [Checked.guard_ok unpooled, Checked.ok_bind, unbound, Checked.ok_bind, check]
    rfl

end Arena

namespace Pool

variable {p p' : Pool} {id : CoreId} {l : Lease} {f : Core → Core} {capacity maxCapacity : Nat}

/-- A refused operation: only the counts of attempts and the idle cores may differ. -/
structure Unaffected (p p' : Pool) : Prop where
  wf : p'.Wf
  arena : p.arena.Unaffected p'.arena
  cores : ∀ i l, (p.core i).lease = some l → p'.core i = p.core i
  unbound : ∀ i, (p.core i).lease = none → (p'.core i).lease = none
  moves : p'.moves = p.moves

theorem Unaffected.refl (W : p.Wf) : p.Unaffected p :=
  ⟨W, .refl _, fun _ _ _ => rfl, fun _ h => h, rfl⟩

/-- A refused operation that leaves the room for idle cores as it was. -/
structure Declines (p p' : Pool) : Prop extends Unaffected p p' where
  room : p'.store.recycler.capacity = p.store.recycler.capacity

theorem Declines.refl (W : p.Wf) : p.Declines p := ⟨.refl W, rfl⟩

theorem Declines.rests (h : p.Declines p') : p.Rests p' where
  wf := h.wf
  config := h.arena.config
  room := h.room
  sized S := S.of_kept h.arena.config fun i l lease => by
    cases was : (p.core i).lease with
    | none => rw [h.unbound i was] at lease; cases lease
    | some k => rw [← was, ← h.cores i k was]; exact lease
  regions i := by
    cases lease : (p.core i).lease with
    | none => exact Core.region?_congr ((h.unbound i lease).trans lease.symm)
    | some l => rw [h.cores i l lease]
  arena := h.arena.sameLeases
  moves := h.moves

/-- A refused operation leaves the bytes of every buffer as they were. -/
theorem Unaffected.byte? (h : p.Unaffected p') (i : CoreId) (k : Nat) : p'.byte? i k = p.byte? i k := by
  refine byte?_congr ?_ fun l _ _ => h.arena.byteAt _ _
  cases lease : (p.core i).lease with
  | none => exact h.unbound i lease
  | some l => rw [h.cores i l lease, lease]

/-- Binding a lease that was granted. -/
theorem bindNew_yields (W : p.arena.Wf) (free : (p.core id).lease = none) :
    (p.bindNew id capacity).Yields fun r =>
      (∃ refusal a, r = ({ p with arena := a }, .error refusal) ∧ p.arena.Unaffected a) ∨
      ∃ l a, r = ({ p with arena := a }.modifyCore id fun _ => { p.core id with lease := some l },
          .ok l) ∧ p.arena.Grants capacity a l ∧
        a.activeLeases = p.arena.activeLeases + if l.location = .unpooled then 0 else 1 := by
  unfold bindNew
  apply (Arena.lease_yields W capacity).bind
  intro ⟨a, answer⟩ outcome
  rcases outcome with ⟨refusal, a', rfl, refused, rfl⟩ | ⟨l, rfl, grants, count⟩
  · exact Checked.yields_pure.2 (.inl ⟨refusal, _, rfl, refused.unaffected⟩)
  · have bound := grants.backs.bind_ok grants.wf (by rw [grants.length]; exact grants.fits) free
    simp only [bound, Checked.ok_bind]
    exact Checked.yields_pure.2 (.inr ⟨l, a, rfl, grants, count⟩)

/-! ## Idle cores -/

/-- A core that is idle or new is made ready. -/
structure Obtains (p : Pool) (maxCapacity : Nat) (p' : Pool) (id : CoreId) : Prop
    extends Steady p p' where
  arena : p.arena.Unaffected p'.arena
  was : (p.core id).lease = none
  core : p'.core id = ⟨none, 0, 0, maxCapacity, 1⟩
  cores : ∀ i, i ≠ id → p'.core i = p.core i
  inside : id < p'.store.cores.size
  busy : id ∉ p'.store.recycler.idle
  moves : p'.moves = p.moves

/-- No lease is given or taken when a core is made ready, so the books stay as they are. -/
theorem Readies.obtains (W : p.Wf) (h : p.Readies maxCapacity p' id) : p.Obtains maxCapacity p' id := by
  have books : p.arena.Unaffected p'.arena := by
    obtain ⟨waited, arena⟩ := h.arena
    rw [arena]
    cases waited <;> exact ⟨rfl, rfl, rfl, rfl, rfl, rfl, rfl, rfl, rfl⟩
  have was := Core.isBound_eq_false.1 h.was
  have mine : (p'.core id).lease = none := by
    rw [h.core]
    rfl
  have same : ∀ i l, (p'.core i).lease = some l → p'.core i = p.core i := fun i l hl => h.cores i fun here => by
    rw [here, mine] at hl
    cases hl
  have lease : ∀ i l, (p'.core i).lease = some l → (p.core i).lease = some l := fun i l hl => by
    rw [← same i l hl]
    exact hl
  have pooled : ∀ i, (p'.core i).pooled = (p.core i).pooled := fun i => by
    by_cases here : i = id
    · rw [here, Core.pooled_none mine, Core.pooled_none was]
    · rw [h.cores i here]
  have wf : p'.Wf := by
    refine ⟨books.sameBooks.wf W.arena, fun i l hl => books.sameBooks.backs (W.held i l (lease i l hl)),
      fun i j l k ne hl hk => W.apart i j l k ne (lease i l hl) (lease j k hk), fun i l hl => ?_, ?_,
      fun i waits => ?_, h.waits.once, ?_⟩
    · rw [same i l hl]
      exact W.cores i l (lease i l hl)
    · -- The cores that were added have no leases.
      rw [books.activeLeases, W.counted, Finset.sum_congr rfl fun i _ => pooled i]
      refine Finset.sum_subset (Finset.range_subset_range.2 h.size) fun i _ beyond => Core.pooled_none ?_
      rw [Pool.core, CoreStore.get_of_size_le (Nat.le_of_not_lt fun below => beyond (Finset.mem_range.2 below))]
      rfl
    · exact ⟨(h.waits.free i waits).1, Core.isBound_eq_false.1 (h.waits.free i waits).2⟩
    · rw [h.capacity]
      exact Nat.le_trans h.length W.room
  exact ⟨⟨wf, books.config, h.capacity, fun S => S.of_kept books.config lease⟩, books, was, h.core, h.cores,
    h.used.inside, h.used.busy, h.moves⟩

theorem obtains_obtainCore (W : p.Wf) (maxCapacity : Nat) :
    p.Obtains maxCapacity (p.obtainCore maxCapacity).1 (p.obtainCore maxCapacity).2 :=
  (W.waits.readies maxCapacity).obtains W

/-- A core made ready has no lease yet. -/
theorem Obtains.rests (h : p.Obtains maxCapacity p' id) : p.Rests p' where
  toSteady := h.toSteady
  regions i := by
    by_cases ne : i = id
    · rw [ne, Core.region?_none h.was, Core.region?_none (by rw [h.core])]
    · rw [h.cores i ne]
  arena := h.arena.sameLeases
  moves := h.moves

/-- A core is parked. -/
structure Parks (p p' : Pool) : Prop extends Steady p p' where
  arena : p'.arena = p.arena
  moves : p'.moves = p.moves
  cores : ∀ i, p'.core i = p.core i

/-- Parking changes the capacity of no queue. -/
theorem capacity_park (r : Recycler) (id : CoreId) : (r.park id).capacity = r.capacity := by
  rw [Recycler.park]
  split <;> rfl

/-- An unbound core is parked, which nobody sees but the queue. -/
theorem park_yields (W : p.Wf) (inside : id < p.store.cores.size) (free : (p.core id).lease = none)
    (busy : id ∉ p.store.recycler.idle) : (p.park id).Yields p.Parks := by
  have guarded : Checked.guard (!(p.store.get id).isBound) .parkedWhileBound = .ok () := by
    apply Checked.guard_ok
    change (!(p.core id).isBound) = true
    rw [Core.isBound, free]
    rfl
  have parked : p.park id = .ok { p with store := { p.store with recycler := p.store.recycler.park id } } := by
    unfold park CoreStore.park
    rw [guarded]
    rfl
  have shelves := W.waits.park_gives ⟨inside, busy⟩ _ parked
  refine ⟨_, parked, ⟨?_, rfl, capacity_park _ _, fun S => S⟩, rfl, rfl, fun _ => rfl⟩
  refine W.change inside rfl (fun _ _ => rfl) W.arena (fun i k _ hk => W.held i k hk) (fun l hl => ?_) rfl
    (fun i waits => ?_) shelves.waits.once ?_
  · change (p.core id).lease = some l at hl
    rw [free] at hl
    cases hl
  · exact ⟨(shelves.waits.free i waits).1, Core.isBound_eq_false.1 (shelves.waits.free i waits).2⟩
  · simp only [Recycler.park]
    split
    · rw [List.length_append]
      assumption
    · exact W.room

/-! ## Taking and giving up cores -/

/-- The cores are as before, and the arena keeps the same books. -/
theorem Wf.sameBooks (W : p.Wf) (books : p.arena.SameBooks p'.arena)
    (active : p'.arena.activeLeases = p.arena.activeLeases)
    (size : p'.store.cores.size = p.store.cores.size) (cores : ∀ i, p'.core i = p.core i)
    (recycler : p'.store.recycler = p.store.recycler) : p'.Wf where
  arena := books.wf W.arena
  held i l hl := books.backs (W.held i l (by rw [← cores]; exact hl))
  apart i j l k ne hl hk := W.apart i j l k ne (by rw [← cores]; exact hl) (by rw [← cores]; exact hk)
  cores i l hl := by
    rw [cores] at hl ⊢
    exact W.cores i l hl
  counted := by
    rw [active, W.counted, size]
    exact Finset.sum_congr rfl fun i _ => by rw [cores]
  idle i hi := by
    rw [recycler] at hi
    rw [size, cores]
    exact W.idle i hi
  once := by rw [recycler]; exact W.once
  room := by rw [recycler]; exact W.room

/-- The bytes of a core that is left alone, after the heap has only grown. -/
theorem byte?_grown (W : p.Wf) {i : CoreId} (core : p'.core i = p.core i)
    (heap : p.arena.heap.Extends p'.arena.heap) (k : Nat) : p'.byte? i k = p.byte? i k := by
  refine byte?_congr (by rw [core]) fun l hl _ => ?_
  rw [Heap.byteAt, heap.get _ ((W.held i l hl).fits W.arena).2.1, Heap.byteAt]

theorem Frame.trans {p'' : Pool} (h : p.Frame id p') (h' : p'.Frame id p'') : p.Frame id p'' where
  toSteady := h.toSteady.trans h'.toSteady
  cores i ne := (h'.cores i ne).trans (h.cores i ne)
  bytes i ne k := (h'.bytes i ne k).trans (h.bytes i ne k)

theorem Obtains.frame (h : p.Obtains maxCapacity p' id) : p.Frame id p' where
  toSteady := h.toSteady
  cores := h.cores
  bytes i ne k := byte?_congr (by rw [h.cores i ne]) fun l _ _ => h.arena.byteAt _ _

/-- The leases of the other cores stay where they are. -/
theorem Frame.regions (h : p.Frame id p') (i : CoreId) (ne : i ≠ id) :
    (p'.core i).region? = (p.core i).region? := by
  rw [h.cores i ne]

/-- A core that waits or is blank gets a lease that was granted. -/
theorem frame_granted (W : p.Wf) (inside : id < p.store.cores.size) (free : (p.core id).lease = none)
    (busy : id ∉ p.store.recycler.idle) {a : Arena} (grants : p.arena.Grants capacity a l)
    (active : a.activeLeases = p.arena.activeLeases + if l.location = .unpooled then 0 else 1)
    (ordered : (p.core id).reader ≤ (p.core id).writer) (written : (p.core id).writer ≤ capacity)
    (ceiling : capacity ≤ (p.core id).maxCapacity) :
    p.Frame id ({ p with arena := a }.modifyCore id fun _ => { p.core id with lease := some l }) := by
  set p' : Pool := { p with arena := a }.modifyCore id fun _ => { p.core id with lease := some l }
    with e
  have get : ∀ i, p'.core i = if i = id then { p.core id with lease := some l } else p.core i :=
    CoreStore.get_modify inside
  have mine : p'.core id = { p.core id with lease := some l } := by rw [get, if_pos rfl]
  have others : ∀ i, i ≠ id → p'.core i = p.core i := fun i ne => by rw [get, if_neg ne]
  have size : p'.store.cores.size = p.store.cores.size := Array.size_modify
  have wf : p'.Wf := by
    refine W.change_busy busy inside size rfl others grants.wf
      (fun i k _ hk => grants.kept k (W.held i k hk)) (fun k hk => ?_) ?_
    · rw [mine] at hk ⊢
      cases hk
      exact ⟨grants.backs, ⟨ordered, by rw [grants.length]; exact written,
        by rw [grants.length]; exact grants.fits, by rw [grants.length]; exact ceiling⟩,
        fun i k _ hk => grants.apart k (W.held i k hk)⟩
    · rw [mine, Core.pooled_none free, Core.pooled_eq rfl]
      exact active
  have sized : p.Sized → p'.Sized := fun S => S.of_new grants.config fun i k hk => by
    by_cases here : i = id
    · rw [here, mine] at hk
      cases hk
      exact .inr grants.sized
    · exact .inl (others i here ▸ hk)
  exact ⟨⟨wf, grants.config, rfl, sized⟩, others,
    fun i ne k => byte?_grown W (others i ne) grants.heap k⟩

/-- A request for a core with a lease is granted or refused. -/
theorem allocate_yields (W : p.Wf) (capacity maxCapacity : Nat) :
    (p.allocate capacity maxCapacity).Yields fun r =>
      (∃ refusal, r.2 = .error refusal ∧ p.Declines r.1) ∨
      ∃ id l, r.2 = .ok id ∧ p.Gains id l r.1 ∧ p.Frame id r.1 ∧
        r.1.core id = ⟨some l, 0, 0, maxCapacity, 1⟩ ∧ l.length = capacity := by
  unfold allocate
  split
  · exact Checked.yields_pure.2 (.inl ⟨_, rfl, .refl W⟩)
  · rename_i ceiling
    have obtains := obtains_obtainCore W maxCapacity
    generalize p.obtainCore maxCapacity = made at obtains
    obtain ⟨p1, id⟩ := made
    have free : (p1.core id).lease = none := by rw [obtains.core]
    apply (bindNew_yields obtains.wf.arena free).bind
    intro _ outcome
    rcases outcome with ⟨refusal, a, rfl, same⟩ | ⟨l, a, rfl, grants, active⟩
    · have wf : ({ p1 with arena := a } : Pool).Wf :=
        obtains.wf.sameBooks same.sameBooks same.activeLeases rfl (fun _ => rfl) rfl
      apply (park_yields wf obtains.inside free obtains.busy).bind
      intro p3 parks
      have cores := parks.cores
      refine Checked.yields_pure.2 (.inl ⟨refusal, rfl, ⟨parks.wf, ?_, fun i l hl => ?_,
        fun i hi => ?_, ?_⟩, parks.room.trans obtains.room⟩)
      · rw [parks.arena]
        exact obtains.arena.trans same
      · have ne : i ≠ id := by
          intro equal
          subst equal
          rw [obtains.was] at hl
          cases hl
        exact (cores i).trans (obtains.cores i ne)
      · rw [cores i]
        by_cases ne : i = id
        · rw [ne]
          exact free
        · exact (congrArg Core.lease (obtains.cores i ne)).trans hi
      · exact parks.moves.trans obtains.moves
    · have frame := frame_granted obtains.wf obtains.inside free obtains.busy grants active
        (by rw [obtains.core]) (by rw [obtains.core]; exact Nat.zero_le _)
        (by rw [obtains.core]; exact Nat.le_of_not_lt ceiling)
      have mine := (core_modifyCore (p := { p1 with arena := a }) obtains.inside
        (fun _ => { p1.core id with lease := some l }) id).trans (if_pos rfl)
      have gains : p1.Gains id l _ :=
        ⟨frame.toSteady, free, congrArg Core.lease mine, frame.regions, grants.adds, rfl⟩
      refine Checked.yields_pure.2 (.inr ⟨id, l, rfl, obtains.rests.gains gains,
        obtains.frame.trans frame, mine.trans ?_, grants.length⟩)
      rw [obtains.core]

/-- While a core has a pooled lease, at least one is counted. -/
theorem Wf.active_pos (W : p.Wf) (h : (p.core id).lease = some l) (pooled : l.location ≠ .unpooled) :
    0 < p.arena.activeLeases := by
  have one := Finset.single_le_sum (f := fun i => (p.core i).pooled) (fun i _ => Nat.zero_le _)
    (Finset.mem_range.2 (lt_size_of_bound h))
  rw [← W.counted, Core.pooled_eq h, if_neg pooled] at one
  exact one

/-- The lease of a core goes back. -/
theorem reclaim_yields (W : p.Wf) (h : (p.core id).lease = some l) :
    (p.reclaim id).Yields fun p' => p.Frame id p' ∧ p.Loses id l p' := by
  have inside := lt_size_of_bound h
  have backs := W.held id l h
  unfold reclaim
  rw [h]
  apply (Arena.takeBack_yields W.arena backs (W.active_pos h)).bind
  intro a ⟨returns, active, returned⟩
  set p2 : Pool := { p.modifyCore id (fun c => { c with lease := none }) with arena := a } with e
  have get : ∀ i, p2.core i = if i = id then { p.core id with lease := none } else p.core i :=
    CoreStore.get_modify inside
  have mine : (p2.core id).lease = none := by rw [get, if_pos rfl]
  have others : ∀ i, i ≠ id → p2.core i = p.core i := fun i ne => by rw [get, if_neg ne]
  have size : p2.store.cores.size = p.store.cores.size := Array.size_modify
  have wf : p2.Wf := by
    refine W.change_busy (W.busy h) inside size rfl others returns.wf
      (fun i k ne hk => returns.kept k (W.held i k hk) (W.apart i id k l ne hk h)) (fun k hk => ?_) ?_
    · rw [mine] at hk
      cases hk
    · have positive := W.active_pos h
      rw [Core.pooled_none mine, Core.pooled_eq h]
      change a.activeLeases + _ = _
      rw [active]
      split
      · omega
      · rename_i pooled
        have := positive pooled
        omega
  apply (park_yields wf (by rw [size]; exact inside) mine (W.busy h)).mono
  intro p3 parks
  have cores := parks.cores
  have frame : p.Frame id p3 := by
    refine ⟨⟨parks.wf, parks.config.trans returns.config, parks.room, fun S => ?_⟩,
      fun i ne => (cores i).trans (others i ne), fun i ne k => ?_⟩
    · refine S.of_kept (parks.config.trans returns.config) fun i k hk => ?_
      rw [cores] at hk
      by_cases here : i = id
      · rw [here, mine] at hk
        cases hk
      · exact others i here ▸ hk
    · refine byte?_congr (by rw [cores i, others i ne]) fun l _ _ => ?_
      rw [parks.arena]
      change a.heap.byteAt _ _ = _
      rw [returns.heap]
  refine ⟨frame, frame.toSteady, h, (congrArg Core.lease (cores id)).trans mine, frame.regions, ?_,
    parks.moves⟩
  rw [parks.arena]
  exact returns.removes returned

/-- A change of a bound core that keeps the lease. -/
theorem frame_modifyCore (W : p.Wf) (h : (p.core id).lease = some l)
    (same : (f (p.core id)).lease = some l) (fits : (f (p.core id)).Fits l) :
    p.Frame id (p.modifyCore id f) := by
  have inside := lt_size_of_bound h
  have get := core_modifyCore inside f
  have others : ∀ i, i ≠ id → (p.modifyCore id f).core i = p.core i := fun i ne => by
    rw [get, if_neg ne]
  refine ⟨⟨W.change_busy (W.busy h) inside Array.size_modify rfl others W.arena
    (fun i k _ hk => W.held i k hk) (fun k hk => ?_) ?_, rfl, rfl, fun S => ?_⟩, others, fun i ne k => ?_⟩
  · rw [get, if_pos rfl] at hk ⊢
    cases same.symm.trans hk
    exact ⟨W.held id l h, fits, fun i k ne hk => W.apart id i l k (Ne.symm ne) h hk⟩
  · rw [get, if_pos rfl, Core.pooled_eq h, Core.pooled_eq same]
    rfl
  · refine S.of_kept rfl fun i k hk => ?_
    rw [get] at hk
    split at hk
    · rename_i here
      rw [here, h, ← same, hk]
    · exact hk
  · exact byte?_congr (by rw [others i ne]) fun _ _ _ => rfl

/-- A change of a bound core that keeps the region moves no lease. -/
theorem rests_modifyCore (steady : p.Steady (p.modifyCore id f)) (h : (p.core id).lease = some l)
    (same : (f (p.core id)).region? = some l.region) : p.Rests (p.modifyCore id f) where
  toSteady := steady
  regions i := by
    rw [core_modifyCore (lt_size_of_bound h)]
    split
    · rename_i here
      rw [same, here, Core.region?_eq h]
    · rfl
  arena := .refl _
  moves := rfl

/-- A change of a bound core that keeps the lease keeps its bytes. -/
theorem byte?_modifyCore (h : (p.core id).lease = some l)
    (same : (f (p.core id)).lease = some l) (i : CoreId) (k : Nat) :
    (p.modifyCore id f).byte? i k = p.byte? i k := by
  refine byte?_congr ?_ fun _ _ _ => rfl
  rw [core_modifyCore (lt_size_of_bound h)]
  split
  · rename_i e
    rw [same, e, h]
  · rfl

/-- A reference is taken on a core. -/
structure Retains (p : Pool) (id : CoreId) (p' : Pool) : Prop where
  frame : p.Frame id p'
  rests : p.Rests p'
  core : p'.core id = { p.core id with refs := (p.core id).refs + 1 }
  bytes : ∀ k, p'.byte? id k = p.byte? id k

theorem retain_yields (W : p.Wf) (h : (p.core id).lease = some l) (used : 0 < (p.core id).refs) :
    (p.retain id).Yields (p.Retains id) := by
  unfold retain
  have fits := W.cores id l h
  have frame : p.Frame id (p.modifyCore id fun c => { c with refs := c.refs + 1 }) :=
    frame_modifyCore W h h ⟨fits.ordered, fits.inside, fits.region, fits.ceiling⟩
  refine .guard (by simpa using used) (Checked.yields_pure.2 ⟨frame,
    rests_modifyCore frame.toSteady h (Core.region?_eq h), ?_, fun k => ?_⟩)
  · rw [core_modifyCore (lt_size_of_bound h), if_pos rfl]
  · exact byte?_modifyCore (f := fun c => { c with refs := c.refs + 1 }) h h id k

/-- A reference is returned; the last one takes the lease with it. -/
theorem release_yields (W : p.Wf) (h : (p.core id).lease = some l) (used : 0 < (p.core id).refs) :
    (p.release id).Yields fun p' => p.Frame id p' ∧
      if (p.core id).refs = 1 then p.Loses id l p'
      else p.Rests p' ∧ p'.core id = { p.core id with refs := (p.core id).refs - 1 } ∧
        ∀ k, p'.byte? id k = p.byte? id k := by
  have fits := W.cores id l h
  have inside := lt_size_of_bound h
  set f : Core → Core := fun c => { c with refs := (p.core id).refs - 1 } with e
  have frame : p.Frame id (p.modifyCore id f) :=
    frame_modifyCore W h h ⟨fits.ordered, fits.inside, fits.region, fits.ceiling⟩
  have mine : (p.modifyCore id f).core id = { p.core id with refs := (p.core id).refs - 1 } := by
    rw [core_modifyCore inside, if_pos rfl]
  have rests : p.Rests (p.modifyCore id f) := rests_modifyCore frame.toSteady h (Core.region?_eq h)
  unfold release
  refine .guard (by simpa using used) ?_
  simp only
  split
  · rename_i last
    apply (reclaim_yields (l := l) frame.wf (by rw [mine]; exact h)).mono
    intro p' ⟨frame', loses⟩
    exact ⟨frame.trans frame', rests.loses h loses⟩
  · exact Checked.yields_pure.2 ⟨frame, rests, mine, fun k => byte?_modifyCore (f := f) h h id k⟩

end Pool

end BufferPool
