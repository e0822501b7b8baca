import BufferPool.Proofs.Arena.Undo
import BufferPool.Proofs.Pool.Tally
import BufferPool.Proofs.Pool.Thrift
import BufferPool.Proofs.Pool.Twins

/-!
# A core that is leased and released

A core that gets a lease and loses it at once goes out of use again, and nothing happens to the cores that are
in use (`Pool.Restored`). What the arena has to be like for it, every turn of the leases keeps
(`Pool.Orderly`).
-/

namespace BufferPool

open Checked

namespace Pool

variable {p p' : Pool} {capacity maxCapacity : Nat}

/-- Of several chunks each has a run, and idle pages are the last ones of their lists, where such pages are
kept at all. -/
structure Orderly (p : Pool) : Prop where
  tidy : p.arena.Tidy
  idleLast : p.arena.table.IdleLast
  thrift : ∃ seen, p.Thrift seen

theorem Orderly.turn (O : p.Orderly) (W : p.Wf) (turn : p.Turn p') : p'.Orderly where
  tidy := turn.tends.tidy O.tidy
  idleLast := turn.tends.idleLast O.idleLast
  thrift := by
    obtain ⟨seen, T⟩ := O.thrift
    exact ⟨_, T.turn W turn⟩

/-- Idle pages stay carved only where the last one of a size is kept. -/
theorem Orderly.kept (O : p.Orderly) (x : SubpageId) (s : Subpage) (active : p.arena.active? x = some s)
    (idle : s.Idle) : p.arena.table.keepLast = true := by
  obtain ⟨seen, T⟩ := O.thrift
  by_contra gives
  exact idle.1 (T.arena.sizeless (Bool.eq_false_of_not_eq_true gives) x s active idle.2)

/-- What is left of a core that was leased and released: it may wait, and others may have moved up. -/
structure Restored (p p' : Pool) : Prop where
  arena : p.arena.Restored p'.arena
  activeLeases : p'.arena.activeLeases = p.arena.activeLeases
  moves : p'.moves = p.moves
  cores : ∀ i, p.InUse i → p'.core i = p.core i
  used : ∀ i, p.InUse i → p'.InUse i

/-- A lease of a request that counts as such goes back at once. -/
theorem Orderly.takeBack (O : p.Orderly) (W : p.Wf) (some : 0 < p.arena.chunks.size)
    (served : p.arena.ServedAgain capacity) (event : Event) : ((p.arena.count event).lease capacity).Gives fun r =>
      ∀ l, r.2 = .ok l → (r.1.takeBack l).Gives fun a =>
        p.arena.Restored a ∧ a.activeLeases = p.arena.activeLeases := by
  have counted := (Arena.sameBooks_count p.arena event).wf W.arena
  refine (Arena.lease_takeBack counted ⟨O.tidy.occupied, O.tidy.limited⟩ O.idleLast O.kept some served).mono ?_
  intro r back l answer
  exact (back l answer).mono fun a ⟨h, active⟩ =>
    ⟨⟨h.config, h.table, h.tinyHeads, h.smallHeads, h.chunks, h.heap⟩, active⟩

/-- The only reference on a core goes: the lease goes back, and the core may wait. -/
structure Vacates (p : Pool) (id : CoreId) (l : Lease) (p' : Pool) : Prop where
  back : p.arena.takeBack l = .ok p'.arena
  moves : p'.moves = p.moves
  cores : ∀ i, i ≠ id → p'.core i = p.core i
  kept : ∀ i, i ≠ id → p.InUse i → p'.InUse i

theorem release_vacates (Q : p.Waits) {id : CoreId} {l : Lease} (lease : (p.core id).lease = some l)
    (single : (p.core id).refs = 1) : (p.release id).Gives (p.Vacates id l) := by
  have used := Q.inUse lease
  unfold release reclaim
  rw [single]
  refine .guard fun _ => ?_
  set p1 := p.modifyCore id fun c => { c with refs := 1 - 1 } with e1
  have size1 : p1.store.cores.size = p.store.cores.size := CoreStore.size_modify
  have get1 : ∀ i, p1.core i = if i = id then { p.core id with refs := 0 } else p.core i :=
    core_modifyCore used.inside _
  have lease1 : (p1.core id).lease = some l := by
    rw [get1, if_pos rfl]
    exact lease
  dsimp only
  rw [if_pos rfl, lease1]
  refine Gives.bind (show (p.arena.takeBack l).Gives fun a => p.arena.takeBack l = .ok a from fun _ e => e) ?_
  intro a back
  have get2 := core_modifyCore (size1.symm ▸ used.inside) fun c => { c with lease := none }
  set p2 : Pool := { p1.modifyCore id (fun c => { c with lease := none }) with arena := a } with e2
  have size2 : p2.store.cores.size = p.store.cores.size := CoreStore.size_modify.trans size1
  have others : ∀ i, i ≠ id → p2.core i = p.core i := fun i ne => by
    rw [show p2.core i = _ from get2 i, if_neg ne, get1, if_neg ne]
  have waits : p2.Waits := Q.change used (fun i ne => by rw [others i ne]) size2 rfl
  refine (waits.park_gives (used.of_same size2 rfl)).mono fun p' shelves => ?_
  have arena : p'.arena = a := shelves.arena
  refine ⟨arena ▸ back, shelves.moves, fun i ne => ?_, fun i ne inUse => ?_⟩
  · rw [← others i ne, core, CoreStore.get, shelves.cores]
    rfl
  · exact shelves.kept i ne (inUse.of_same size2 rfl)

/-- A core that was made ready is bound and released. -/
theorem Orderly.bindNew_release (O : p.Orderly) (W : p.Wf) (some : 0 < p.arena.chunks.size)
    (served : p.arena.ServedAgain capacity) {q : Pool} {id : CoreId} (readies : p.Readies maxCapacity q id) :
    (q.bindNew id capacity).Gives fun r => ∀ l, r.2 = .ok l → (r.1.release id).Gives p.Restored := by
  obtain ⟨waited, arena⟩ := readies.arena
  unfold bindNew
  rw [arena]
  refine (O.takeBack W some served _).bind ?_
  rintro ⟨a, answer⟩ back
  cases answer with
  | error refusal => exact gives_pure.2 fun _ e => by cases e
  | ok l =>
    refine Core.bind_gives.bind fun core bound => gives_pure.2 fun _ _ => ?_
    set p1 := { q with arena := a }.modifyCore id fun _ => core with e1
    have get : ∀ i, p1.core i = if i = id then core else q.core i :=
      core_modifyCore (p := { q with arena := a }) readies.used.inside fun _ => core
    have size : p1.store.cores.size = q.store.cores.size := CoreStore.size_modify
    have mine : p1.core id = { q.core id with lease := Option.some l } := by rw [get, if_pos rfl, bound]
    have lease : (p1.core id).lease = Option.some l := by rw [mine]
    have single : (p1.core id).refs = 1 := by rw [mine, readies.core]; rfl
    have waits : p1.Waits := readies.waits.change readies.used (fun i ne => by rw [get, if_neg ne]) size rfl
    refine (release_vacates waits lease single).mono fun p' vacates => ?_
    obtain ⟨restored, active⟩ := back l rfl _ vacates.back
    have other : ∀ i, p.InUse i → i ≠ id := fun i inUse same => readies.fresh (same ▸ inUse)
    refine ⟨restored, active, vacates.moves.trans readies.moves, fun i inUse => ?_, fun i inUse => ?_⟩
    · rw [vacates.cores i (other i inUse), get, if_neg (other i inUse), readies.cores i (other i inUse)]
    · exact vacates.kept i (other i inUse) ((readies.kept i inUse).of_same size rfl)

/-- A request that is granted and released at once. -/
theorem Orderly.allocate_release (O : p.Orderly) (W : p.Wf) (some : 0 < p.arena.chunks.size)
    (served : p.arena.ServedAgain capacity) (maxCapacity : Nat) : (p.allocate capacity maxCapacity).Gives fun r =>
      ∀ id, r.2 = .ok id → (r.1.release id).Gives p.Restored := by
  unfold allocate
  split
  · exact gives_pure.2 fun _ e => by cases e
  have readies := W.waits.readies maxCapacity
  generalize p.obtainCore maxCapacity = made at readies
  obtain ⟨q, id⟩ := made
  refine (O.bindNew_release W some served readies).bind ?_
  rintro ⟨p1, answer⟩ released
  cases answer with
  | error refusal => exact .skip fun _ => gives_pure.2 fun _ e => by cases e
  | ok l =>
    refine gives_pure.2 fun _ e => ?_
    cases e
    exact released l rfl

/-! ## What is left of it -/

theorem Waits.inUse_of_isBound {i : CoreId} (Q : p.Waits) (bound : (p.core i).isBound = true) : p.InUse i := by
  obtain ⟨l, lease⟩ := Option.isSome_iff_exists.1 bound
  exact Q.inUse lease

/-- The pool on a system that answers otherwise. -/
def withSupply (p : Pool) (refuses : Supply) : Pool := p.modifyHeap fun h => h.withSupply refuses

/-- The two pools do the same, if the system answers alike from now on: one has the cores with leases that the
other one has. -/
theorem Restored.twins {q : Pool} {refuses : Supply} (h : p.Restored q) (W : p.Wf) (W' : q.Wf)
    (answers : ∀ n size, (p.withSupply refuses).arena.heap.willRefuse n size = q.arena.heap.willRefuse n size) :
    (p.withSupply refuses).Twins
      (.shifted p.arena.heap.blocks.size (q.arena.heap.blocks.size - p.arena.heap.blocks.size))
      { i | (p.core i).isBound = true } id q where
  arena := h.arena.alike W.arena W'.arena h.activeLeases answers
  moves := h.moves
  cores i bound := by
    obtain ⟨l, lease⟩ := Option.isSome_iff_exists.1 bound
    have same : (p.core i).renumbered (.shifted p.arena.heap.blocks.size
        (q.arena.heap.blocks.size - p.arena.heap.blocks.size)) = p.core i := by
      rw [Core.renumbered, lease, Option.map_some, (W.held i l lease).renumbered W.arena, ← lease]
    exact (h.cores i (W.waits.inUse lease)).trans same.symm
  apart := Function.injective_id.injOn
  used i bound := (W.waits.inUse_of_isBound bound).of_same rfl rfl
  used' i bound := h.used i (W.waits.inUse_of_isBound bound)
  waits := ⟨W.waits.free, W.waits.once⟩
  waits' := W'.waits

end Pool

end BufferPool
