import BufferPool.Proofs.Arena.Tally
import BufferPool.Proofs.Pool.Ledger
import BufferPool.Proofs.Pool.Waits

/-!
# Counting at the pool

A pool whose figures agree (`Pool.Booked`) has counted a granted lease for every request that was granted and
for every move, and a returned one for every such lease that no core has any more. Every operation on cores
keeps the figures in agreement; a request for a core makes up to one more granted, and one more attempted.
-/

namespace BufferPool

open Checked

/-- A core that was given a lease has it. -/
theorem Core.bind_gives {c : Core} {l : Lease} : (c.bind l).Gives fun c' => c' = { c with lease := some l } := by
  unfold bind
  split <;>
    exact .skip fun _ => .skip fun _ => .skip fun _ => gives_pure.2 rfl

namespace Pool

variable {p p' : Pool} {id : CoreId} {l : Lease} {f : Core → Core} {capacity maxCapacity granted admitted : Nat}

/-! ## Bound cores -/

/-- The cores that have a lease. -/
def boundCores (p : Pool) : Finset CoreId :=
  (Finset.range p.store.cores.size).filter fun i => (p.core i).isBound = true

theorem mem_boundCores {i : CoreId} : i ∈ p.boundCores ↔ (p.core i).isBound = true := by
  rw [boundCores, Finset.mem_filter, Finset.mem_range, and_iff_right_iff_imp]
  intro bound
  obtain ⟨l, lease⟩ := Option.isSome_iff_exists.1 bound
  exact lt_size_of_bound lease

theorem boundCores_congr (same : ∀ i, (p'.core i).isBound = (p.core i).isBound) :
    p'.boundCores = p.boundCores :=
  Finset.ext fun i => by rw [mem_boundCores, mem_boundCores, same]

/-- One more core has a lease. -/
theorem card_boundCores (free : (p.core id).isBound = false) (mine : (p'.core id).isBound = true)
    (others : ∀ i, i ≠ id → (p'.core i).isBound = (p.core i).isBound) :
    p'.boundCores.card = p.boundCores.card + 1 := by
  have more : p'.boundCores = insert id p.boundCores := Finset.ext fun i => by
    rw [Finset.mem_insert, mem_boundCores, mem_boundCores]
    by_cases here : i = id
    · simp [here, mine]
    · simp [here, others i here]
  rw [more, Finset.card_insert_of_notMem fun mem => ?_]
  rw [mem_boundCores, free] at mem
  cases mem

/-- The leases of a pool are those of its bound cores. -/
theorem length_leases : p.leases.length = p.boundCores.card := by
  have count : ∀ n, ((List.range n).filterMap fun i => (p.core i).lease).length =
      ((Finset.range n).filter fun i => (p.core i).isBound = true).card := fun n => by
    induction n with
    | zero => rfl
    | succ n ih =>
      rw [List.range_succ, List.filterMap_append, List.length_append, ih, Finset.range_add_one,
        Finset.filter_insert]
      cases lease : (p.core n).lease with
      | none => simp [Core.isBound, lease]
      | some l =>
        rw [if_pos (Core.isBound_of_lease lease), Finset.card_insert_of_notMem (by simp)]
        simp [lease]
  exact count _

/-! ## Figures that agree -/

/-- The figures of a pool after so many requests were granted of those that passed the ceiling. -/
structure Booked (p : Pool) (granted admitted : Nat) : Prop extends Waits p where
  counts : p.arena.Counts granted p.boundCores.card p.moves admitted

/-- A pool whose cores are bound as before. -/
theorem Booked.of_same (B : p.Booked granted admitted)
    (bound : ∀ i, (p'.core i).isBound = (p.core i).isBound) (size : p'.store.cores.size = p.store.cores.size)
    (recycler : p'.store.recycler = p.store.recycler)
    (counts : p'.arena.Counts granted p.boundCores.card p'.moves admitted) : p'.Booked granted admitted where
  free i waits := by
    rw [recycler] at waits
    rw [size, bound]
    exact B.free i waits
  once := recycler ▸ B.once
  counts := by
    rw [boundCores_congr bound]
    exact counts

theorem Booked.modifyCore (B : p.Booked granted admitted) (id : CoreId)
    (same : ∀ c, (f c).isBound = c.isBound) : (p.modifyCore id f).Booked granted admitted :=
  B.of_same (isBound_modifyCore same) CoreStore.size_modify rfl B.counts

/-- A core goes out of use. -/
theorem Booked.park (B : p.Booked granted admitted) (used : p.InUse id) :
    (p.park id).Gives fun p' => p'.Booked granted admitted := by
  refine (B.park_gives used).mono fun p' shelves => ⟨shelves.waits, ?_⟩
  have same : p'.boundCores = p.boundCores := boundCores_congr fun i => by
    rw [core, CoreStore.get, shelves.cores]
    rfl
  rw [shelves.arena, shelves.moves, same]
  exact B.counts

/-! ## Requests -/

/-- A core is made ready, and the attempt is counted. -/
theorem Booked.ready (B : p.Booked granted admitted) (h : p.Readies maxCapacity p' id) :
    p'.Booked granted (admitted + 1) := by
  obtain ⟨waited, arena⟩ := h.arena
  refine ⟨h.waits, ?_⟩
  rw [arena, h.moves, boundCores_congr h.isBound]
  exact B.counts.attempt waited

/-- What binding a lease does: the arena counts it, and the core has it. -/
theorem bindNew_gives : (p.bindNew id capacity).Gives fun r => match r.2 with
    | .error _ => ∃ a, p.arena.Tally 0 0 a ∧ r.1 = { p with arena := a }
    | .ok l => ∃ a core, p.arena.Tally 1 0 a ∧ core.lease = some l ∧
        r.1 = { p with arena := a }.modifyCore id fun _ => core := by
  unfold bindNew
  refine Arena.lease_tally.bind ?_
  intro ⟨a, answer⟩ tally
  cases answer with
  | error refusal => exact gives_pure.2 ⟨a, tally, rfl⟩
  | ok l =>
    exact Core.bind_gives.bind fun core bound => gives_pure.2 ⟨a, core, tally, congrArg Core.lease bound, rfl⟩

/-- A core in use that has no lease gets one that was granted. -/
theorem Booked.bound (B : p.Booked granted admitted) (used : p.InUse id) (free : (p.core id).isBound = false)
    {a : Arena} (tally : p.arena.Tally 1 0 a) {core : Core} (lease : core.lease = some l) :
    (({ p with arena := a } : Pool).modifyCore id fun _ => core).Booked (granted + 1) admitted := by
  set p' : Pool := ({ p with arena := a } : Pool).modifyCore id fun _ => core with e
  have get : ∀ i, p'.core i = if i = id then core else p.core i :=
    core_modifyCore (p := { p with arena := a }) used.inside fun _ => core
  have others : ∀ i, i ≠ id → (p'.core i).isBound = (p.core i).isBound := fun i ne => by
    rw [get, if_neg ne]
  have mine : (p'.core id).isBound = true := by
    rw [get, if_pos rfl]
    exact Core.isBound_of_lease lease
  exact ⟨B.change used others CoreStore.size_modify rfl,
    B.counts.tally tally (card_boundCores free mine others)⟩

/-- A request passes the ceiling or not, and is granted or not, and is counted accordingly. -/
theorem Booked.allocate (B : p.Booked granted admitted) :
    (p.allocate capacity maxCapacity).Gives fun r =>
      r.1.Booked (granted + r.2.toBool.toNat) (admitted + (decide (capacity ≤ maxCapacity)).toNat) := by
  unfold Pool.allocate
  split
  · rename_i above
    refine gives_pure.2 ?_
    rw [decide_eq_false (Nat.not_le.2 above)]
    exact B
  · rename_i ceiling
    rw [decide_eq_true (Nat.le_of_not_lt ceiling)]
    have readies := B.readies maxCapacity
    have ready := B.ready readies
    generalize p.obtainCore maxCapacity = made at readies ready
    obtain ⟨p1, id⟩ := made
    refine bindNew_gives.bind ?_
    intro ⟨p2, answer⟩ outcome
    cases answer with
    | error refusal =>
      obtain ⟨a, tally, rfl⟩ := outcome
      have same : ({ p1 with arena := a } : Pool).Booked granted (admitted + 1) :=
        ready.of_same (fun _ => rfl) rfl rfl (ready.counts.same tally)
      exact (same.park ⟨readies.used.inside, readies.used.busy⟩).bind fun p3 parked => gives_pure.2 parked
    | ok l =>
      obtain ⟨a, core, tally, lease, rfl⟩ := outcome
      exact gives_pure.2 (ready.bound readies.used ((readies.isBound id).trans readies.was) tally lease)

/-- A request leaves the configuration as it is. -/
theorem allocate_config : (p.allocate capacity maxCapacity).Gives fun r => r.1.config = p.config := by
  have obtained : (p.obtainCore maxCapacity).1.config = p.config := rfl
  unfold Pool.allocate
  split
  · exact gives_pure.2 rfl
  · generalize p.obtainCore maxCapacity = made at obtained
    obtain ⟨p1, id⟩ := made
    refine bindNew_gives.bind ?_
    intro ⟨p2, answer⟩ outcome
    cases answer with
    | error refusal =>
      obtain ⟨a, tally, rfl⟩ := outcome
      have parked : (Pool.park { p1 with arena := a } id).Gives fun p3 => p3.config = p.config :=
        .skip fun store => gives_pure.2 (tally.config.trans obtained)
      exact parked.bind fun p3 same => gives_pure.2 same
    | ok l =>
      obtain ⟨a, core, tally, -, rfl⟩ := outcome
      exact gives_pure.2 (tally.config.trans obtained)

/-! ## Leases given back -/

/-- A core whose lease is taken from it. -/
theorem isBound_unbind (lease : (p.core id).lease = some l) (i : CoreId) :
    ((p.modifyCore id fun c => { c with lease := none }).core i).isBound =
      if i = id then false else (p.core i).isBound := by
  rw [core_modifyCore (lt_size_of_bound lease)]
  split <;> rfl

/-- A lease that is taken back is counted, and the core may wait. -/
theorem Booked.reclaim (B : p.Booked granted admitted) (id : CoreId) :
    (p.reclaim id).Gives fun p' => p'.Booked granted admitted := by
  unfold Pool.reclaim
  cases lease : (p.core id).lease with
  | none => exact gives_pure.2 B
  | some l =>
    have used := B.inUse lease
    have unbound := isBound_unbind lease
    refine (Arena.takeBack_tally (a := p.arena)).bind ?_
    intro a tally
    set p' : Pool := { p.modifyCore id fun c => { c with lease := none } with arena := a } with e
    have free : (p'.core id).isBound = false := (unbound id).trans (if_pos rfl)
    have others : ∀ i, i ≠ id → (p'.core i).isBound = (p.core i).isBound := fun i ne =>
      (unbound i).trans (if_neg ne)
    have less : p.boundCores.card = p'.boundCores.card + 1 :=
      card_boundCores free (Core.isBound_of_lease lease) fun i ne => (others i ne).symm
    have counted : p'.Booked granted admitted :=
      ⟨B.change used others CoreStore.size_modify rfl, B.counts.tally tally less.symm⟩
    exact counted.park (used.of_same CoreStore.size_modify rfl)

theorem Booked.release (B : p.Booked granted admitted) (id : CoreId) :
    (p.release id).Gives fun p' => p'.Booked granted admitted := by
  unfold Pool.release
  refine .guard fun _ => ?_
  have fewer : (p.modifyCore id fun c => { c with refs := (p.core id).refs - 1 }).Booked granted admitted :=
    B.modifyCore id fun _ => rfl
  dsimp only
  split
  · exact fewer.reclaim id
  · exact gives_pure.2 fewer

/-! ## Exchanged leases -/

/-- A core that has a lease again. -/
theorem isBound_rebind (lease : (p.core id).lease = some l) {a : Arena}
    (again : (f { p.core id with lease := none }).isBound = true) (i : CoreId) :
    ((({ p.modifyCore id fun c => { c with lease := none } with arena := a } : Pool).modifyCore id f).core
      i).isBound = (p.core i).isBound := by
  have inside := lt_size_of_bound lease
  have cores := core_modifyCore inside fun c => { c with lease := none }
  have size : (p.modifyCore id fun c => { c with lease := none }).store.cores.size = p.store.cores.size :=
    CoreStore.size_modify
  rw [core_modifyCore (size ▸ inside)]
  split
  · rename_i here
    rw [here, Core.isBound_of_lease lease, ← again]
    exact congrArg (fun c => (f c).isBound) ((cores id).trans (if_pos rfl))
  · rename_i ne
    exact congrArg Core.isBound ((cores i).trans (if_neg ne))

/-- An exchange counts as a lease granted and a lease returned, and as an exchange. -/
theorem Booked.move (B : p.Booked granted admitted) :
    (p.move id capacity).Gives fun r => r.1.Booked granted admitted := by
  unfold Pool.move
  cases lease : (p.core id).lease with
  | none => exact gives_error
  | some old =>
    have size : ∀ {q : Pool} {f : Core → Core}, (q.modifyCore id f).store.cores.size = q.store.cores.size :=
      CoreStore.size_modify
    refine bindNew_gives.bind ?_
    intro ⟨p1, answer⟩ outcome
    cases answer with
    | error refusal =>
      obtain ⟨a, tally, rfl⟩ := outcome
      exact gives_pure.2 (B.of_same (isBound_rebind lease rfl) (size.trans size) rfl (B.counts.same tally))
    | ok new =>
      obtain ⟨a, core, tally, fresh, same⟩ := outcome
      dsimp only at same
      have bound : ∀ i, (p1.core i).isBound = (p.core i).isBound := fun i => by
        rw [same]
        exact isBound_rebind lease (Core.isBound_of_lease fresh) i
      have cores : p1.store.cores.size = p.store.cores.size := by
        rw [same]
        exact size.trans size
      have recycler : p1.store.recycler = p.store.recycler := by rw [same]; rfl
      -- Until the former lease is back, one lease more is out than cores have one.
      have exchanged : (p1.arena.count .moved).Counts granted (p.boundCores.card + 1) (p1.moves + 1) admitted := by
        rw [same]
        exact (B.counts.tally tally (by rfl)).moved
      clear same
      refine .skip fun _ => .skip fun _ => Arena.takeBack_tally.bind ?_
      intro a' back
      have clamped : ∀ c : Core, (c.clamp capacity).isBound = c.isBound := fun _ => rfl
      refine gives_pure.2 (B.of_same (fun i => (isBound_modifyCore clamped i).trans (bound i))
        (size.trans cores) recycler (.tally ?_ back rfl))
      exact exchanged.same (Arena.tally_of_same rfl rfl rfl rfl)

/-- A core whose region serves another length. -/
theorem Booked.resizedInPlace (B : p.Booked granted admitted) (id : CoreId)
    (same : ∀ c, (f c).isBound = c.isBound) :
    ((p.modifyCore id f).count .resizedInPlace).Booked granted admitted :=
  B.of_same (isBound_modifyCore same) CoreStore.size_modify rfl
    (B.counts.same ⟨rfl, rfl, rfl, rfl, rfl, rfl, rfl⟩)

theorem Booked.resizePooled (B : p.Booked granted admitted) :
    (p.resizePooled id l capacity).Gives fun r => r.1.Booked granted admitted := by
  have bound : ∀ c : Core, (c.withLength capacity).isBound = c.isBound := fun c => Option.isSome_map
  unfold Pool.resizePooled
  split
  · split
    · exact gives_ok.2 (B.resizedInPlace id bound)
    · exact B.move
  · split
    · exact gives_ok.2 (B.resizedInPlace id bound)
    · exact B.move

theorem Booked.setCapacity (B : p.Booked granted admitted) (id : CoreId) (capacity : Nat) :
    (p.setCapacity id capacity).Gives fun r => r.1.Booked granted admitted := by
  unfold Pool.setCapacity
  dsimp only
  split
  · exact gives_pure.2 B
  · refine .skip fun lease => ?_
    split
    · exact gives_pure.2 B
    · split
      · exact B.resizePooled
      · exact B.move

theorem Booked.setBytes (B : p.Booked granted admitted) (id : CoreId) (index : Nat) (bytes : ByteArray) :
    (p.setBytes id index bytes).Gives fun r => r.1.Booked granted admitted := by
  unfold Pool.setBytes
  dsimp only
  split
  · exact gives_pure.2 B
  · refine .skip fun lease => .skip fun position => .skip fun _ => ?_
    exact gives_pure.2 (B.of_same (fun _ => rfl) rfl rfl (B.counts.same (Arena.tally_of_same rfl rfl rfl rfl)))

/-- A new pool has counted nothing. -/
theorem booked_ofConfig (config : PoolConfig) (supply : Supply) : (ofConfig config supply).Booked 0 0 :=
  ⟨⟨nofun, List.nodup_nil⟩, ⟨rfl, rfl, rfl, rfl, rfl, rfl⟩⟩

end Pool

end BufferPool
