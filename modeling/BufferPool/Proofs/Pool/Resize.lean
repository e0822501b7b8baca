import BufferPool.Proofs.Pool.Lease

/-!
# Changes of capacity

A core changes its capacity in place or by an exchange of leases. Either way its cursors come inside the
new capacity, and the bytes below both capacities stay (`Pool.Resizes`). The exchange holds two leases for
a moment; they are apart, so the copy reads what the old region had.
-/

namespace BufferPool

namespace Pool

variable {p p' : Pool} {id : CoreId} {l : Lease} {capacity : Nat}

/-- What a change of capacity does. -/
structure Resizes (p : Pool) (id : CoreId) (capacity : Nat) (p' : Pool) : Prop where
  frame : p.Frame id p'
  course : p.Course p'
  core : ∃ l, l.length = capacity ∧ p'.core id = { (p.core id).clamp capacity with lease := some l }
  bytes : ∀ k, k < (p.core id).capacity → k < capacity → p'.byte? id k = p.byte? id k

/-- Cursors brought inside a capacity fit it. -/
theorem fits_clamp {c : Core} {old : Lease} (fits : c.Fits old) (region : l.length ≤ l.maxLength)
    (ceiling : l.length ≤ c.maxCapacity) :
    ({ c.clamp l.length with lease := some l } : Core).Fits l where
  ordered := by
    have := fits.ordered
    simp only [Core.clamp]
    omega
  inside := Nat.min_le_right _ _
  region := region
  ceiling := ceiling

/-- Cursors that are inside a capacity already stay where they are. -/
theorem clamp_of_le {c : Core} (ordered : c.reader ≤ c.writer) (inside : c.writer ≤ capacity) :
    c.clamp capacity = c := by
  rw [Core.clamp, Nat.min_eq_left (Nat.le_trans ordered inside), Nat.min_eq_left inside]

/-- A capacity that stays the same changes nothing. -/
theorem Resizes.same (W : p.Wf) (h : (p.core id).lease = some l) : p.Resizes id l.length p where
  frame := ⟨.refl W, fun _ _ => rfl, fun _ _ _ => rfl⟩
  course := (Rests.refl W).course
  core := by
    have fits := W.cores id l h
    refine ⟨l, rfl, ?_⟩
    rw [clamp_of_le fits.ordered fits.inside, ← h]
  bytes _ _ _ := rfl

/-! ## In place -/

/-- The length in use changes, and the region stays. -/
structure KeepsRegion (p : Pool) (id : CoreId) (l : Lease) (capacity : Nat) (p' : Pool) : Prop where
  resizes : p.Resizes id capacity p'
  lease : (p'.core id).lease = some { l with length := capacity }
  moves : p'.moves = p.moves

/-- The length in use changes inside the region. -/
theorem keepsRegion_withLength (W : p.Wf) (h : (p.core id).lease = some l) {f : Core → Core}
    (region : capacity ≤ l.maxLength) (ceiling : capacity ≤ (p.core id).maxCapacity)
    (sized : l.Sized p.config.chunkSize → ({ l with length := capacity } : Lease).Sized p.config.chunkSize)
    (core : f (p.core id) =
      { (p.core id).clamp capacity with lease := some { l with length := capacity } }) :
    p.KeepsRegion id l capacity ((p.modifyCore id f).count .resizedInPlace) := by
  have inside := lt_size_of_bound h
  set p' := (p.modifyCore id f).count .resizedInPlace with e
  have get : ∀ i, p'.core i = if i = id then f (p.core id) else p.core i := core_modifyCore inside f
  have mine : p'.core id =
      { (p.core id).clamp capacity with lease := some { l with length := capacity } } := by
    rw [get, if_pos rfl, core]
  have others : ∀ i, i ≠ id → p'.core i = p.core i := fun i ne => by rw [get, if_neg ne]
  have books : p.arena.SameBooks p'.arena := Arena.sameBooks_count _ _
  have leases : p.arena.SameLeases p'.arena := ⟨⟨rfl, rfl, rfl, rfl⟩, rfl⟩
  have wf : p'.Wf := by
    refine W.change_busy (W.busy h) inside Array.size_modify rfl others (books.wf W.arena)
      (fun i k _ hk => books.backs (W.held i k hk)) (fun k hk => ?_) ?_
    · rw [mine] at hk ⊢
      cases hk
      exact ⟨books.backs ((W.held id l h).withLength capacity),
        fits_clamp (W.cores id l h) region ceiling, fun i k ne hk => W.apart id i l k (Ne.symm ne) h hk⟩
    · rw [mine, Core.pooled_eq h, Core.pooled_eq rfl]
      rfl
  have steady : p.Steady p' := ⟨wf, rfl, rfl, fun S => S.of_new rfl fun i k hk => by
    by_cases here : i = id
    · rw [here, mine] at hk
      cases hk
      exact .inr (sized (S id l h))
    · exact .inl (others i here ▸ hk)⟩
  refine ⟨⟨⟨steady, others, fun i ne k => byte?_congr (by rw [others i ne]) fun _ _ _ => rfl⟩,
    Rests.course ⟨steady, fun i => ?_, leases, rfl⟩, ⟨_, rfl, mine⟩, fun k old new => ?_⟩,
    by rw [mine], rfl⟩
  · by_cases here : i = id
    · rw [here, Core.region?_eq h, Core.region?_eq (by rw [mine])]
      rfl
    · rw [others i here]
  · rw [Core.capacity_eq h] at old
    rw [byte?_eq h old, byte?_eq (by rw [mine]) new]
    rfl

/-- A pooled lease that may keep its region does so. -/
theorem resizePooled_of_keeps (W : p.Wf) (h : (p.core id).lease = some l) (pooled : l.location ≠ .unpooled)
    (other : capacity ≠ l.length) (ceiling : capacity ≤ (p.core id).maxCapacity)
    (keeps : l.keepsRegion capacity = true) :
    ∃ p', p.resizePooled id l capacity = .ok (p', .ok ()) ∧ p.KeepsRegion id l capacity p' := by
  have fits := W.cores id l h
  have exactly := W.arena.config
  have sized (S : l.Sized p.config.chunkSize) := S.withLength exactly pooled other keeps
  unfold Lease.keepsRegion at keeps
  unfold resizePooled
  split at keeps
  · rename_i more
    rw [decide_eq_true_iff] at keeps
    rw [if_pos more, if_pos keeps]
    refine ⟨_, rfl, keepsRegion_withLength W h keeps ceiling sized ?_⟩
    rw [clamp_of_le fits.ordered (Nat.le_trans fits.inside (Nat.le_of_lt more)), Core.withLength, h]
    rfl
  · rename_i less
    rw [if_neg less, if_pos keeps]
    have region := Nat.le_trans (Nat.le_of_not_lt less) fits.region
    refine ⟨_, rfl, keepsRegion_withLength W h region ceiling sized ?_⟩
    rw [Core.withLength, h]
    rfl

/-- A pooled lease that may not keep its region is exchanged. -/
theorem resizePooled_of_gives (gives : l.keepsRegion capacity = false) :
    p.resizePooled id l capacity = p.move id capacity := by
  unfold Lease.keepsRegion at gives
  unfold resizePooled
  split at gives
  · rename_i more
    rw [if_pos more, if_neg (of_decide_eq_false gives)]
  · rename_i less
    rw [if_neg less, gives]
    rfl

/-! ## By exchange -/

/-- Copying from an old region to a new one, in an arena that accounts for both. -/
structure Carries (a : Arena) (old new : Lease) (length : Nat) (a' : Arena) : Prop where
  books : a.SameBooks a'
  leases : a.SameLeases a'
  active : a'.activeLeases = a.activeLeases
  moved : ∀ k < length, a'.heap.byteAt new.chunk.memory (new.offset + k) =
    a.heap.byteAt old.chunk.memory (old.offset + k)
  others : ∀ l : Lease, new.Apart l → ∀ k < l.maxLength,
    a'.heap.byteAt l.chunk.memory (l.offset + k) = a.heap.byteAt l.chunk.memory (l.offset + k)

theorem carries_transfer {a : Arena} (old : Lease) {new : Lease} {length : Nat}
    (inside : new.chunk.memory < a.heap.blocks.size) (fits : length ≤ new.maxLength) :
    Carries a old new length (({ a with
      heap := a.heap.transfer old.chunk.memory old.offset new.chunk.memory new.offset length } :
        Arena).count .moved) where
  books := ⟨rfl, rfl, rfl, rfl, rfl, rfl, Heap.sameShape_overwrite⟩
  leases := ⟨⟨rfl, rfl, rfl, rfl⟩, rfl⟩
  active := rfl
  moved k hk := by
    change (a.heap.transfer _ _ _ _ _).byteAt _ _ = _
    rw [Heap.byteAt_transfer inside, if_pos ⟨rfl, by omega, by omega⟩, Nat.add_sub_cancel_left]
  others l apart k hk := by
    change (a.heap.transfer _ _ _ _ _).byteAt _ _ = _
    rw [Heap.byteAt_transfer inside]
    split
    · rename_i hit
      exact absurd ⟨hit.1, rfl⟩
        (outside_of_apart apart hit.2.1 (by omega) (Nat.le_add_right _ k) (by omega))
    · rfl

/-- A range at the start of a region can be accessed. -/
theorem check_region {a : Arena} (W : a.Wf) (b : a.Backs l) {length : Nat} (fits : length ≤ l.maxLength) :
    a.heap.check l.chunk.memory l.offset length = .ok () := by
  obtain ⟨region, -, size⟩ := b.fits W
  exact Heap.check_ok W.bounded (by omega)

/-- The lease of a core after the exchange: granted, filled, and the old one taken back. -/
theorem resizes_exchanged (W : p.Wf) (h : (p.core id).lease = some l) {a a' : Arena} {new : Lease}
    (ceiling : capacity ≤ (p.core id).maxCapacity) (grants : p.arena.Grants capacity a new)
    (active : a.activeLeases = p.arena.activeLeases + if new.location = .unpooled then 0 else 1)
    (carries : Carries a l new (min l.length capacity) a') (returns : a'.Returns l p'.arena)
    (back : p'.arena.activeLeases = a'.activeLeases - if l.location = .unpooled then 0 else 1)
    (returned : p'.arena.counters.returned = a'.counters.returned + 1)
    (moves : p'.moves = p.moves + 1) (size : p'.store.cores.size = p.store.cores.size)
    (core : p'.core id = { (p.core id).clamp capacity with lease := some new })
    (cores : ∀ i, i ≠ id → p'.core i = p.core i)
    (recycler : p'.store.recycler = p.store.recycler) : p.Resizes id capacity p' := by
  have held := W.held id l h
  have known : ∀ i k, (p.core i).lease = some k → ∀ j,
      a.heap.byteAt k.chunk.memory j = p.arena.heap.byteAt k.chunk.memory j := fun i k hk j => by
    rw [Heap.byteAt, grants.heap.get _ ((W.held i k hk).fits W.arena).2.1, Heap.byteAt]
  have wf : p'.Wf := by
    refine W.change_busy (W.busy h) (lt_size_of_bound h) size recycler cores returns.wf
      (fun i k ne hk => ?_) (fun k hk => ?_) ?_
    · exact returns.kept k (carries.books.backs (grants.kept k (W.held i k hk)))
        (W.apart i id k l ne hk h)
    · rw [core] at hk ⊢
      cases hk
      have fits := fits_clamp (l := new) (W.cores id l h) (by rw [grants.length]; exact grants.fits)
        (by rw [grants.length]; exact ceiling)
      rw [grants.length] at fits
      exact ⟨returns.kept new (carries.books.backs grants.backs) (grants.apart l held), fits,
        fun i k ne hk => grants.apart k (W.held i k hk)⟩
    · have positive := W.active_pos h
      rw [core, Core.pooled_eq h, Core.pooled_eq rfl, back, carries.active, active]
      by_cases pooled : l.location = .unpooled
      · rw [if_pos pooled]
        omega
      · have := positive pooled
        rw [if_neg pooled]
        omega
  have config := returns.config.trans (carries.books.config.trans grants.config)
  have steady : p.Steady p' := ⟨wf, config, congrArg Recycler.capacity recycler, fun S =>
    S.of_new config fun i k hk => by
      by_cases here : i = id
      · rw [here, core] at hk
        cases hk
        exact .inr grants.sized
      · exact .inl (cores i here ▸ hk)⟩
  have exchanges : p.Exchanges id l new p' := by
    refine ⟨steady, h, Core.region?_eq (by rw [core]), fun i ne => by rw [cores i ne],
      ⟨a', carries.books.wf grants.wf, ?_, returns.removes returned⟩, moves⟩
    exact grants.adds.congr (.refl _) carries.leases
  refine ⟨⟨steady, cores, fun i ne k => ?_⟩, .exchanges exchanges, ⟨new, grants.length, core⟩,
    fun k old below => ?_⟩
  · refine byte?_congr (by rw [cores i ne]) fun k hk below => ?_
    rw [returns.heap, carries.others k (grants.apart k (W.held i k hk)) _
      (Nat.lt_of_lt_of_le below (W.cores i k hk).region), known i k hk]
  · rw [Core.capacity_eq h] at old
    rw [byte?_eq h old, byte?_eq (by rw [core]) (by rw [grants.length]; exact below), returns.heap,
      carries.moved k (Nat.lt_min.2 ⟨old, below⟩), known id l h]

/-- The lease of a core is exchanged or the request refused. -/
theorem move_yields (W : p.Wf) (h : (p.core id).lease = some l)
    (ceiling : capacity ≤ (p.core id).maxCapacity) : (p.move id capacity).Yields fun r =>
      (∃ refusal, r.2 = .error refusal ∧ p.Declines r.1) ∨
      r.2 = .ok () ∧ p.Resizes id capacity r.1 ∧ r.1.moves = p.moves + 1 := by
  have inside := lt_size_of_bound h
  have fits := W.cores id l h
  have held := W.held id l h
  unfold move
  rw [h]
  simp only
  set p1 := p.modifyCore id (fun c => { c with lease := none }) with e1
  have size1 : p1.store.cores.size = p.store.cores.size := Array.size_modify
  have get1 : ∀ i, p1.core i = if i = id then { p.core id with lease := none } else p.core i :=
    core_modifyCore inside _
  have mine1 : p1.core id = { p.core id with lease := none } := by rw [get1, if_pos rfl]
  apply (bindNew_yields (p := p1) W.arena (by rw [mine1])).bind
  intro _ outcome
  rcases outcome with ⟨refusal, a, rfl, same⟩ | ⟨new, a, rfl, grants, active⟩
  · refine Checked.yields_pure.2 (.inl ⟨refusal, rfl, ?_⟩)
    simp only
    set p2 : Pool := { p1 with arena := a }.modifyCore id fun c => { c with lease := some l } with e2
    have cores : ∀ i, p2.core i = p.core i := fun i => by
      rw [e2, core_modifyCore (p := { p1 with arena := a }) (by rw [size1]; exact inside)]
      change (if i = id then { p1.core id with lease := some l } else p1.core i) = _
      split
      · rename_i same
        rw [mine1, same, ← h]
      · rename_i ne
        rw [get1, if_neg ne]
    have size : p2.store.cores.size = p.store.cores.size := Array.size_modify.trans size1
    have wf : p2.Wf := W.sameBooks same.sameBooks same.activeLeases size cores rfl
    exact ⟨⟨wf, same, fun i _ _ => cores i, fun i hi => by rw [cores]; exact hi, rfl⟩, rfl⟩
  · simp only
    have held' := grants.kept l held
    have kept_old : min l.length capacity ≤ l.maxLength :=
      Nat.le_trans (Nat.min_le_left _ _) fits.region
    have kept_new : min l.length capacity ≤ new.maxLength :=
      Nat.le_trans (Nat.min_le_right _ _) grants.fits
    refine .bind_ok (check_region grants.wf held' kept_old) ?_
    refine .bind_ok (check_region grants.wf grants.backs kept_new) ?_
    have carries := carries_transfer l (grants.backs.fits grants.wf).2.1 kept_new
    have counted : l.location ≠ .unpooled → 0 < a.activeLeases := fun pooled => by
      have := W.active_pos h pooled
      rw [active]
      exact Nat.lt_of_lt_of_le this (Nat.le_add_right _ _)
    refine (Arena.takeBack_yields (carries.books.wf grants.wf) (carries.books.backs held')
      counted).bind ?_
    intro a' ⟨returns, back, returned⟩
    refine Checked.yields_pure.2 (.inr ⟨rfl, ?_, rfl⟩)
    set p2 : Pool := { p1 with arena := a }.modifyCore id fun _ => { p1.core id with lease := some new }
      with e2
    have size2 : p2.store.cores.size = p.store.cores.size := Array.size_modify.trans size1
    have get2 : ∀ i, p2.core i = if i = id then { p.core id with lease := some new } else p.core i := by
      intro i
      rw [e2, core_modifyCore (p := { p1 with arena := a }) (by rw [size1]; exact inside), mine1]
      split
      · rfl
      · rename_i ne
        exact (get1 i).trans (if_neg ne)
    have get3 := core_modifyCore (p := p2) (by rw [size2]; exact inside) fun c => c.clamp capacity
    refine resizes_exchanged W h ceiling grants active carries returns back returned rfl
      (Array.size_modify.trans size2) ((get3 id).trans ?_) (fun i ne => (get3 i).trans ?_) rfl
    · rw [if_pos rfl, get2, if_pos rfl]
      rfl
    · rw [if_neg ne, get2, if_neg ne]

/-- A pooled lease that changes its length stays or is exchanged as its region says. -/
theorem setCapacity_of_pooled (h : (p.core id).lease = some l) (pooled : l.location ≠ .unpooled)
    (other : capacity ≠ l.length) (ceiling : capacity ≤ (p.core id).maxCapacity) :
    p.setCapacity id capacity = p.resizePooled id l capacity := by
  unfold setCapacity
  simp only [if_neg (Nat.not_lt.2 ceiling), Core.bound_ok h, Checked.ok_bind, if_neg other]
  cases location : l.location with
  | unpooled => exact absurd location pooled
  | pooled _ => rfl

/-- A change of capacity succeeds or is refused. -/
theorem setCapacity_yields (W : p.Wf) (h : (p.core id).lease = some l) (capacity : Nat) :
    (p.setCapacity id capacity).Yields fun r =>
      (∃ refusal, r.2 = .error refusal ∧ p.Declines r.1) ∨
      r.2 = .ok () ∧ p.Resizes id capacity r.1 := by
  unfold setCapacity
  simp only
  split
  · exact Checked.yields_pure.2 (.inl ⟨_, rfl, .refl W⟩)
  · rename_i ceiling
    have ceiling := Nat.le_of_not_lt ceiling
    refine .bind_ok (Core.bound_ok h) ?_
    split
    · rename_i same
      exact Checked.yields_pure.2 (.inr ⟨rfl, same ▸ .same W h⟩)
    · rename_i other
      cases location : l.location with
      | unpooled => exact (move_yields W h ceiling).mono fun r h => h.imp_right fun h => ⟨h.1, h.2.1⟩
      | pooled _ =>
        have pooled : l.location ≠ .unpooled := by rw [location]; nofun
        simp only
        cases keeps : l.keepsRegion capacity with
        | true =>
          obtain ⟨p', e, kept⟩ := resizePooled_of_keeps W h pooled other ceiling keeps
          exact ⟨_, e, .inr ⟨rfl, kept.resizes⟩⟩
        | false =>
          rw [resizePooled_of_gives keeps]
          exact (move_yields W h ceiling).mono fun r h => h.imp_right fun h => ⟨h.1, h.2.1⟩

end Pool

end BufferPool
