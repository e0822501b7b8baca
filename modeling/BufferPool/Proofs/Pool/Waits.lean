import BufferPool.Proofs.Checked
import BufferPool.Proofs.Pool.Basic

/-!
# Idle cores

Whatever else is true of a pool, nobody has a core that waits, and none waits twice (`Pool.Waits`). A core that
is made ready is one that nobody used, and it keeps nothing of what it was before.
-/

namespace BufferPool

open Checked

theorem Core.isBound_eq_false {c : Core} : c.isBound = false ↔ c.lease = none := by
  rw [Core.isBound, Option.isSome_eq_false_iff, Option.isNone_iff_eq_none]

/-- A core without a lease is made ready as if it were new. -/
theorem Core.ready_of_free {c : Core} (free : c.isBound = false) (maxCapacity : Nat) :
    c.ready maxCapacity = Core.blank.ready maxCapacity := by
  rw [ready, isBound_eq_false.1 free]
  rfl

namespace Pool

variable {p p' : Pool} {id : CoreId} {l : Lease} {f : Core → Core} {maxCapacity : Nat}

theorem isBound_modifyCore (same : ∀ c, (f c).isBound = c.isBound) (i : CoreId) :
    ((p.modifyCore id f).core i).isBound = (p.core i).isBound := by
  simp only [core, modifyCore, CoreStore.get, CoreStore.modify, Array.getElem?_modify]
  split
  · cases p.store.cores[i]? with
    | none => rfl
    | some c => exact same c
  · rfl

/-- Nobody has the cores that wait, and none waits twice. -/
structure Waits (p : Pool) : Prop where
  free : ∀ i ∈ p.store.recycler.idle, i < p.store.cores.size ∧ (p.core i).isBound = false
  once : p.store.recycler.idle.Nodup

/-- A core that is there and does not wait. -/
structure InUse (p : Pool) (id : CoreId) : Prop where
  inside : id < p.store.cores.size
  busy : id ∉ p.store.recycler.idle

theorem Wf.waits (W : p.Wf) : p.Waits where
  free i waits := ⟨(W.idle i waits).1, Core.isBound_eq_false.2 (W.idle i waits).2⟩
  once := W.once

/-- A core with a lease is in use. -/
theorem Waits.inUse (W : p.Waits) (lease : (p.core id).lease = some l) : p.InUse id :=
  ⟨lt_size_of_bound lease, fun waits => by
    have free := (W.free id waits).2
    rw [Core.isBound_of_lease lease] at free
    cases free⟩

/-- The idle cores after a change of one core that is in use. -/
theorem Waits.change (W : p.Waits) (used : p.InUse id)
    (others : ∀ i, i ≠ id → (p'.core i).isBound = (p.core i).isBound)
    (size : p'.store.cores.size = p.store.cores.size) (recycler : p'.store.recycler = p.store.recycler) :
    p'.Waits where
  free i waits := by
    rw [recycler] at waits
    have ne : i ≠ id := by
      rintro rfl
      exact used.busy waits
    rw [size, others i ne]
    exact W.free i waits
  once := recycler ▸ W.once

/-- A core is in use as before. -/
theorem InUse.of_same {i : CoreId} (h : p.InUse i) (size : p'.store.cores.size = p.store.cores.size)
    (recycler : p'.store.recycler = p.store.recycler) : p'.InUse i :=
  ⟨size ▸ h.inside, recycler ▸ h.busy⟩

/-! ## Cores made ready -/

/-- A core that was not in use is made ready, and the others stay. -/
structure Readies (p : Pool) (maxCapacity : Nat) (p' : Pool) (id : CoreId) : Prop where
  waits : p'.Waits
  fresh : ¬ p.InUse id
  used : p'.InUse id
  was : (p.core id).isBound = false
  core : p'.core id = Core.blank.ready maxCapacity
  cores : ∀ i, i ≠ id → p'.core i = p.core i
  kept : ∀ i, p.InUse i → p'.InUse i
  arena : ∃ waited : Bool, p'.arena = p.arena.count (if waited then .recyclerHit else .recyclerMiss)
  moves : p'.moves = p.moves
  size : p.store.cores.size ≤ p'.store.cores.size
  capacity : p'.store.recycler.capacity = p.store.recycler.capacity
  length : p'.store.recycler.idle.length ≤ p.store.recycler.idle.length

/-- No core waits, so a new one is made. -/
theorem readies_new (maxCapacity : Nat) (waiting : p.store.recycler.idle = []) :
    p.Readies maxCapacity (p.obtainCore maxCapacity).1 (p.obtainCore maxCapacity).2 := by
  have obtained : p.obtainCore maxCapacity = ({ p with
      store := (p.store.add (Core.blank.ready maxCapacity)).1 }.count .recyclerMiss,
      p.store.cores.size) := by
    rw [obtainCore, CoreStore.obtain, Recycler.take?, waiting]
    rfl
  rw [obtained]
  set p' : Pool := { p with
    store := (p.store.add (Core.blank.ready maxCapacity)).1 }.count .recyclerMiss with e
  have get : ∀ i, p'.core i =
      if i = p.store.cores.size then Core.blank.ready maxCapacity else p.core i := CoreStore.get_add _
  have size : p'.store.cores.size = p.store.cores.size + 1 := Array.size_push ..
  have idle : p'.store.recycler.idle = [] := waiting
  refine ⟨⟨fun i waits => ?_, ?_⟩, fun used => Nat.lt_irrefl _ used.inside, ⟨?_, ?_⟩, ?_, ?_, fun i ne => ?_,
    fun i used => ⟨?_, ?_⟩, ⟨false, rfl⟩, rfl, Nat.le_of_lt ?_, rfl, Nat.le_refl _⟩
  · rw [idle] at waits
    cases waits
  · rw [idle]
    exact List.nodup_nil
  · rw [size]
    exact Nat.lt_succ_self _
  · rw [idle]
    exact List.not_mem_nil
  · rw [core, CoreStore.get_of_size_le (Nat.le_refl _)]
    rfl
  · rw [get, if_pos rfl]
  · rw [get, if_neg ne]
  · rw [size]
    exact Nat.lt_succ_of_lt used.inside
  · rw [idle]
    exact List.not_mem_nil
  · rw [size]
    exact Nat.lt_succ_self _

/-- The core at the front of the queue is made ready. -/
theorem Waits.readies_idle (W : p.Waits) (maxCapacity : Nat) {rest : List CoreId}
    (waiting : p.store.recycler.idle = id :: rest) :
    p.Readies maxCapacity (p.obtainCore maxCapacity).1 (p.obtainCore maxCapacity).2 := by
  have obtained : p.obtainCore maxCapacity = ({ p with
      store := { p.store with recycler := { p.store.recycler with idle := rest } }.modify id
        fun c => c.ready maxCapacity }.count .recyclerHit, id) := by
    rw [obtainCore, CoreStore.obtain, Recycler.take?, waiting]
    rfl
  rw [obtained]
  set p' : Pool := { p with
    store := { p.store with recycler := { p.store.recycler with idle := rest } }.modify id
      fun c => c.ready maxCapacity }.count .recyclerHit with e
  have mem : id ∈ p.store.recycler.idle := by
    rw [waiting]
    exact List.mem_cons_self
  obtain ⟨inside, free⟩ := W.free id mem
  have once := W.once
  rw [waiting, List.nodup_cons] at once
  have get : ∀ i, p'.core i = if i = id then (p.core id).ready maxCapacity else p.core i :=
    CoreStore.get_modify (s := { p.store with recycler := { p.store.recycler with idle := rest } }) inside
  have size : p'.store.cores.size = p.store.cores.size := CoreStore.size_modify
  refine ⟨⟨fun i waits => ?_, once.2⟩, fun used => used.busy mem, ⟨size ▸ inside, once.1⟩, free, ?_,
    fun i ne => ?_, fun i used => ⟨size ▸ used.inside, fun waits => ?_⟩, ⟨true, rfl⟩, rfl, size.ge, rfl, ?_⟩
  · have ne : i ≠ id := by
      rintro rfl
      exact once.1 waits
    rw [size, get, if_neg ne]
    exact W.free i (waiting ▸ List.mem_cons_of_mem _ waits)
  · rw [get, if_pos rfl]
    exact Core.ready_of_free free maxCapacity
  · rw [get, if_neg ne]
  · exact used.busy (waiting ▸ List.mem_cons_of_mem _ waits)
  · rw [waiting]
    exact Nat.le_succ _

theorem Waits.readies (W : p.Waits) (maxCapacity : Nat) :
    p.Readies maxCapacity (p.obtainCore maxCapacity).1 (p.obtainCore maxCapacity).2 := by
  cases waiting : p.store.recycler.idle with
  | nil => exact readies_new maxCapacity waiting
  | cons id rest => exact W.readies_idle maxCapacity waiting

/-- Making a core ready binds none and frees none. -/
theorem Readies.isBound (h : p.Readies maxCapacity p' id) (i : CoreId) :
    (p'.core i).isBound = (p.core i).isBound := by
  by_cases here : i = id
  · rw [here, h.core, h.was]
    rfl
  · rw [h.cores i here]

/-! ## Parked cores -/

/-- A core goes out of use and may wait. -/
structure Shelves (p : Pool) (id : CoreId) (p' : Pool) : Prop where
  waits : p'.Waits
  arena : p'.arena = p.arena
  moves : p'.moves = p.moves
  cores : p'.store.cores = p.store.cores
  recycler : p'.store.recycler = p.store.recycler.park id
  kept : ∀ i, i ≠ id → p.InUse i → p'.InUse i

/-- Only a core without a lease can be parked. -/
theorem Waits.park_gives (W : p.Waits) (used : p.InUse id) : (p.park id).Gives (p.Shelves id) := by
  unfold Pool.park CoreStore.park
  cases bound : (p.core id).isBound with
  | true =>
    rw [show p.store.get id = p.core id from rfl, bound]
    exact gives_error
  | false =>
    rw [show p.store.get id = p.core id from rfl, bound]
    have idle : ∀ i ∈ (p.store.recycler.park id).idle, i ∈ p.store.recycler.idle ∨ i = id := fun i waits => by
      simp only [Recycler.park] at waits
      split at waits
      · exact (List.mem_append.1 waits).imp_right List.mem_singleton.1
      · exact .inl waits
    refine gives_pure.2 ⟨⟨fun i waits => ?_, ?_⟩, rfl, rfl, rfl, rfl, fun i ne inUse =>
      ⟨inUse.inside, fun waits => ?_⟩⟩
    · rcases idle i waits with old | rfl
      · exact W.free i old
      · exact ⟨used.inside, bound⟩
    · simp only [Recycler.park]
      split
      · exact List.nodup_append.2 ⟨W.once, List.nodup_singleton id, fun i mem j last => by
          rw [List.mem_singleton.1 last]
          rintro rfl
          exact used.busy mem⟩
      · exact W.once
    · exact (idle i waits).elim inUse.busy ne

end Pool

end BufferPool
