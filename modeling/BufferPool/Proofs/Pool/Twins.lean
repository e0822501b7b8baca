import BufferPool.Proofs.Arena.Plain
import BufferPool.Proofs.Pool.Waits
import Mathlib.Data.Set.Function

/-!
# Pools that use different cores

Two pools whose arenas are alike, and of which one keeps in core `ρ id` what the other one keeps in core `id`,
for the cores that somebody uses (`Pool.Twins`), do the same. When both make a core ready, it is of no matter
which cores those are: nobody used either of them, and nothing is left in them of former leases.
-/

namespace BufferPool

open Checked

variable {R : Likeness}

/-- The core with its lease on the chunk of the other arena. -/
def Core.renumbered (R : Likeness) (c : Core) : Core := { c with lease := c.lease.map (Lease.renumbered R) }

namespace Core

variable {c : Core} {l : Lease}

@[simp] theorem reader_renumbered : (c.renumbered R).reader = c.reader := rfl

@[simp] theorem writer_renumbered : (c.renumbered R).writer = c.writer := rfl

@[simp] theorem maxCapacity_renumbered : (c.renumbered R).maxCapacity = c.maxCapacity := rfl

@[simp] theorem refs_renumbered : (c.renumbered R).refs = c.refs := rfl

@[simp] theorem readable_renumbered : (c.renumbered R).readable = c.readable := rfl

@[simp] theorem capacity_renumbered : (c.renumbered R).capacity = c.capacity := by
  unfold capacity renumbered
  cases c.lease <;> rfl

@[simp] theorem isBound_renumbered : (c.renumbered R).isBound = c.isBound := Option.isSome_map

@[simp] theorem writable_renumbered : (c.renumbered R).writable = c.writable := by
  rw [writable, capacity_renumbered, writable]
  rfl

theorem bound_renumbered : c.bound.Agrees (c.renumbered R).bound fun l l' => l' = l.renumbered R := by
  unfold bound renumbered
  cases c.lease with
  | none => exact agrees_error
  | some l => exact agrees_ok.2 rfl

theorem withLength_renumbered (length : Nat) :
    (c.renumbered R).withLength length = (c.withLength length).renumbered R := by
  unfold withLength renumbered
  cases c.lease <;> rfl

/-- A lease binds in both or in neither. -/
theorem bind_renumbered : (c.bind l).Agrees ((c.renumbered R).bind (l.renumbered R)) fun d d' =>
    d' = d.renumbered R := by
  unfold bind
  rw [isBound_renumbered, show (l.renumbered R).location = l.location from rfl]
  cases l.location <;>
    exact .step fun _ => .step fun _ => .step fun _ => agrees_pure.2 rfl

end Core

namespace Pool

variable {p p' q q' : Pool} {K L : Set CoreId} {ρ ρ' : CoreId → CoreId} {id id' : CoreId} {a a' : Arena}
  {capacity maxCapacity : Nat}

/-- Two pools that do the same, the cores `K` of one being the cores `ρ id` of the other. -/
structure Twins (R : Likeness) (K : Set CoreId) (ρ : CoreId → CoreId) (p p' : Pool) : Prop where
  arena : p.arena.Alike R p'.arena
  moves : p'.moves = p.moves
  cores : ∀ id ∈ K, p'.core (ρ id) = (p.core id).renumbered R
  apart : Set.InjOn ρ K
  used : ∀ id ∈ K, p.InUse id
  used' : ∀ id ∈ K, p'.InUse (ρ id)
  waits : p.Waits
  waits' : p'.Waits

/-- Fewer cores, named in the same way. -/
theorem Twins.mono (T : Twins R K ρ p p') (less : L ⊆ K) (same : ∀ id ∈ L, ρ' id = ρ id) : Twins R L ρ' p p' where
  arena := T.arena
  moves := T.moves
  cores id mem := by
    rw [same id mem]
    exact T.cores id (less mem)
  apart := (T.apart.mono less).congr fun id mem => (same id mem).symm
  used id mem := T.used id (less mem)
  used' id mem := by
    rw [same id mem]
    exact T.used' id (less mem)
  waits := T.waits
  waits' := T.waits'

/-- The arenas change alike. -/
theorem Twins.withArena (T : Twins R K ρ p p') (same : a.Alike R a') :
    Twins R K ρ { p with arena := a } { p' with arena := a' } :=
  ⟨same, T.moves, T.cores, T.apart, fun id mem => (T.used id mem).of_same rfl rfl,
    fun id mem => (T.used' id mem).of_same rfl rfl, ⟨T.waits.free, T.waits.once⟩, ⟨T.waits'.free, T.waits'.once⟩⟩

/-- A core changes alike in both. -/
theorem Twins.modifyCore (T : Twins R K ρ p p') (mem : id ∈ K) (f f' : Core → Core)
    (alike : f' ((p.core id).renumbered R) = (f (p.core id)).renumbered R) :
    Twins R K ρ (p.modifyCore id f) (p'.modifyCore (ρ id) f') := by
  have mine := T.used id mem
  have yours := T.used' id mem
  have get := core_modifyCore mine.inside f
  have get' := core_modifyCore yours.inside f'
  have size : (p.modifyCore id f).store.cores.size = p.store.cores.size := CoreStore.size_modify
  have size' : (p'.modifyCore (ρ id) f').store.cores.size = p'.store.cores.size := CoreStore.size_modify
  refine ⟨T.arena, T.moves, fun i there => ?_, T.apart, fun i there => (T.used i there).of_same size rfl,
    fun i there => (T.used' i there).of_same size' rfl,
    T.waits.change mine (fun i ne => by rw [get, if_neg ne]) size rfl,
    T.waits'.change yours (fun i ne => by rw [get', if_neg ne]) size' rfl⟩
  rw [get, get']
  by_cases here : i = id
  · rw [if_pos here, if_pos (congrArg ρ here), T.cores id mem, alike]
  · rw [if_neg here, if_neg fun same => here (T.apart there mem same), T.cores i there]

/-- The memories change alike. -/
theorem Twins.withHeap (T : Twins R K ρ p p') {h h' : Heap} (alike : h.Alike R h') :
    Twins R K ρ { p with arena := { p.arena with heap := h } } { p' with arena := { p'.arena with heap := h' } } :=
  T.withArena (T.arena.withHeap alike)

/-- Any event may be counted. -/
theorem Twins.count (T : Twins R K ρ p p') (event : Event) : Twins R K ρ (p.count event) (p'.count event) :=
  T.withArena (T.arena.count event)

/-- The same answer from twins that stay twins. -/
def Alike {α : Type} (R : Likeness) (K : Set CoreId) (ρ : CoreId → CoreId) (r r' : Pool × α) : Prop :=
  Twins R K ρ r.1 r'.1 ∧ r'.2 = r.2

/-! ## Requests -/

/-- Both make a core ready, which nobody used before. -/
theorem Twins.readies (T : Twins R K ρ p p') (h : p.Readies maxCapacity q id)
    (h' : p'.Readies maxCapacity q' id') :
    id ∉ K ∧ Twins R (insert id K) (Function.update ρ id id') q q' := by
  have fresh : id ∉ K := fun mem => h.fresh (T.used id mem)
  have fresh' : ∀ i ∈ K, ρ i ≠ id' := fun i mem same => h'.fresh (same ▸ T.used' i mem)
  have others : ∀ i ∈ K, i ≠ id := fun i mem same => fresh (same ▸ mem)
  have named : ∀ i ∈ K, Function.update ρ id id' i = ρ i := fun i mem => Function.update_of_ne (others i mem) ..
  refine ⟨fresh, ?_, h'.moves.trans (T.moves.trans h.moves.symm), ?_, ?_, ?_, ?_, h.waits, h'.waits⟩
  · obtain ⟨waited, arena⟩ := h.arena
    obtain ⟨waited', arena'⟩ := h'.arena
    rw [arena, arena']
    exact T.arena.waited waited waited'
  · refine Set.forall_mem_insert.2 ⟨?_, fun i mem => ?_⟩
    · rw [Function.update_self, h.core, h'.core]
      rfl
    · rw [named i mem, h.cores i (others i mem), h'.cores _ (fresh' i mem), T.cores i mem]
  · refine (Set.injOn_insert fresh).2 ⟨T.apart.congr fun i mem => (named i mem).symm, ?_⟩
    rintro ⟨i, mem, same⟩
    rw [named i mem, Function.update_self] at same
    exact fresh' i mem same
  · exact Set.forall_mem_insert.2 ⟨h.used, fun i mem => h.kept i (T.used i mem)⟩
  · refine Set.forall_mem_insert.2 ⟨?_, fun i mem => ?_⟩
    · rw [Function.update_self]
      exact h'.used
    · rw [named i mem]
      exact h'.kept _ (T.used' i mem)

/-- Both arenas grant the same lease to a core, or refuse it alike. -/
theorem Twins.bindNew (T : Twins R K ρ p p') (mem : id ∈ K) (capacity : Nat) :
    (p.bindNew id capacity).Agrees (p'.bindNew (ρ id) capacity) fun r r' =>
      Twins R K ρ r.1 r'.1 ∧ r'.2 = r.2.map (Lease.renumbered R) := by
  unfold Pool.bindNew
  refine (T.arena.lease capacity).bind ?_
  rintro ⟨a, answer⟩ ⟨a', answer'⟩ ⟨same, alike⟩
  have kept := T.withArena same
  cases alike
  cases answer with
  | error refusal => exact agrees_pure.2 ⟨kept, rfl⟩
  | ok l =>
    dsimp only [Except.map]
    rw [T.cores id mem]
    refine Core.bind_renumbered.bind fun core core' same => ?_
    cases same
    exact agrees_pure.2 ⟨kept.modifyCore mem _ _ rfl, rfl⟩

/-- Both park a core. -/
theorem Twins.park (T : Twins R K ρ p p') (mem : id ∈ K) :
    (p.park id).Agrees (p'.park (ρ id)) (Twins R (K \ {id}) ρ) := by
  intro q q' e e'
  have h := T.waits.park_gives (T.used id mem) q e
  have h' := T.waits'.park_gives (T.used' id mem) q' e'
  have core : ∀ i, q.core i = p.core i := fun i => by
    rw [Pool.core, CoreStore.get, h.cores]
    rfl
  have core' : ∀ i, q'.core i = p'.core i := fun i => by
    rw [Pool.core, CoreStore.get, h'.cores]
    rfl
  refine ⟨?_, ?_, fun i there => ?_, T.apart.mono Set.sdiff_subset, fun i there => ?_, fun i there => ?_,
    h.waits, h'.waits⟩
  · rw [h.arena, h'.arena]
    exact T.arena
  · rw [h.moves, h'.moves, T.moves]
  · rw [core, core', T.cores i there.1]
  · exact h.kept i there.2 (T.used i there.1)
  · exact h'.kept _ (fun same => there.2 (T.apart there.1 mem same)) (T.used' i there.1)

/-- The answers to a request: a core that nobody used before, or a refusal. -/
inductive Grants (R : Likeness) (K : Set CoreId) (ρ : CoreId → CoreId) :
    Pool × Answered CoreId → Pool × Answered CoreId → Prop where
  | granted {q q' : Pool} {id id' : CoreId} (fresh : id ∉ K)
      (twins : Twins R (insert id K) (Function.update ρ id id') q q') : Grants R K ρ (q, .ok id) (q', .ok id')
  | refused {q q' : Pool} {refusal : Refusal} (twins : Twins R K ρ q q') :
      Grants R K ρ (q, .error refusal) (q', .error refusal)

theorem Twins.allocate (T : Twins R K ρ p p') (capacity maxCapacity : Nat) :
    (p.allocate capacity maxCapacity).Agrees (p'.allocate capacity maxCapacity) (Grants R K ρ) := by
  unfold Pool.allocate
  split
  · exact agrees_pure.2 (.refused T)
  · have readies := T.waits.readies maxCapacity
    have readies' := T.waits'.readies maxCapacity
    generalize p.obtainCore maxCapacity = made at readies
    generalize p'.obtainCore maxCapacity = made' at readies'
    obtain ⟨p₁, id⟩ := made
    obtain ⟨p₁', id'⟩ := made'
    have both : id ∉ K ∧ Twins R (insert id K) (Function.update ρ id id') p₁ p₁' := T.readies readies readies'
    obtain ⟨fresh, ready⟩ := both
    have others : ∀ i ∈ K, i ≠ id := fun i there same => fresh (same ▸ there)
    have mem : id ∈ insert id K := Set.mem_insert ..
    have named : Function.update ρ id id' id = id' := Function.update_self ..
    have bound := ready.bindNew mem capacity
    rw [named] at bound
    refine bound.bind ?_
    rintro ⟨p₂, answer⟩ ⟨p₂', answer'⟩ ⟨twins, alike⟩
    cases alike
    cases answer with
    | ok l => exact agrees_pure.2 (.granted fresh twins)
    | error refusal =>
      have parked := twins.park mem
      rw [named] at parked
      refine parked.bind fun p₃ p₃' twins => agrees_pure.2 (.refused (twins.mono (fun i there => ?_) ?_))
      · exact ⟨Set.mem_insert_of_mem _ there, others i there⟩
      · exact fun i there => (Function.update_of_ne (others i there) ..).symm

/-! ## Leases given back -/

/-- Both take a lease back; the core may go out of use. -/
theorem Twins.reclaim (T : Twins R K ρ p p') (mem : id ∈ K) :
    (p.reclaim id).Agrees (p'.reclaim (ρ id)) (Twins R (K \ {id}) ρ) := by
  unfold Pool.reclaim
  rw [T.cores id mem, Core.renumbered]
  cases (p.core id).lease with
  | none => exact agrees_pure.2 (T.mono Set.sdiff_subset fun _ _ => rfl)
  | some l =>
    have unbound := T.modifyCore mem (fun c => { c with lease := none }) (fun c => { c with lease := none }) rfl
    refine (unbound.arena.takeBack l).bind fun a a' same => ?_
    exact (unbound.withArena same).park mem

theorem Twins.retain (T : Twins R K ρ p p') (mem : id ∈ K) :
    (p.retain id).Agrees (p'.retain (ρ id)) (Twins R K ρ) := by
  unfold Pool.retain
  rw [T.cores id mem]
  exact .step fun _ => agrees_pure.2 (T.modifyCore mem _ _ rfl)

/-- With the last reference the core goes out of use. -/
theorem Twins.release (T : Twins R K ρ p p') (mem : id ∈ K) : (p.release id).Agrees (p'.release (ρ id))
    (Twins R (if (p.core id).refs = 1 then K \ {id} else K) ρ) := by
  unfold Pool.release
  rw [T.cores id mem, Core.refs_renumbered]
  refine .step fun _ => ?_
  have fewer := T.modifyCore mem (fun c => { c with refs := (p.core id).refs - 1 })
    (fun c => { c with refs := (p.core id).refs - 1 }) rfl
  dsimp only
  split
  · exact fewer.reclaim mem
  · exact agrees_pure.2 fewer

/-! ## Leases exchanged -/

theorem Twins.moved (T : Twins R K ρ p p') :
    Twins R K ρ ({ p with moves := p.moves + 1 }.count .moved)
      ({ p' with moves := p'.moves + 1 }.count .moved) := by
  have more : Twins R K ρ { p with moves := p.moves + 1 } { p' with moves := p'.moves + 1 } :=
    ⟨T.arena, congrArg (· + 1) T.moves, T.cores, T.apart, fun i mem => (T.used i mem).of_same rfl rfl,
      fun i mem => (T.used' i mem).of_same rfl rfl, ⟨T.waits.free, T.waits.once⟩,
      ⟨T.waits'.free, T.waits'.once⟩⟩
  exact more.count .moved

theorem Twins.move (T : Twins R K ρ p p') (mem : id ∈ K) (capacity : Nat) :
    (p.move id capacity).Agrees (p'.move (ρ id) capacity) (Alike R K ρ) := by
  unfold Pool.move
  rw [T.cores id mem, Core.renumbered]
  cases (p.core id).lease with
  | none => exact agrees_error
  | some old =>
    have unbound := T.modifyCore mem (fun c => { c with lease := none }) (fun c => { c with lease := none }) rfl
    refine (unbound.bindNew mem capacity).bind ?_
    rintro ⟨p₁, answer⟩ ⟨p₁', answer'⟩ ⟨twins, alike⟩
    cases alike
    cases answer with
    | error refusal => exact agrees_pure.2 ⟨twins.modifyCore mem _ _ rfl, rfl⟩
    | ok new =>
      refine .skip fun _ _ => .skip fun _ _ => ?_
      have carried := twins.withHeap (twins.arena.heap.transfer old.chunk.memory old.offset
        new.chunk.memory new.offset (min old.length capacity))
      have exchanged := (carried.modifyCore mem (fun c => c.clamp capacity) (fun c => c.clamp capacity) rfl).moved
      refine (exchanged.arena.takeBack old).bind fun a a' same => ?_
      exact agrees_pure.2 ⟨exchanged.withArena same, rfl⟩

theorem Twins.growInPlace (T : Twins R K ρ p p') (mem : id ∈ K) (capacity : Nat) :
    Twins R K ρ (p.growInPlace id capacity) (p'.growInPlace (ρ id) capacity) :=
  (T.modifyCore mem _ _ (Core.withLength_renumbered capacity)).count _

theorem Twins.shrinkInPlace (T : Twins R K ρ p p') (mem : id ∈ K) (capacity : Nat) :
    Twins R K ρ (p.shrinkInPlace id capacity) (p'.shrinkInPlace (ρ id) capacity) :=
  (T.modifyCore mem _ _ (congrArg (fun c => c.clamp capacity) (Core.withLength_renumbered capacity))).count _

theorem Twins.resizePooled (T : Twins R K ρ p p') (mem : id ∈ K) (l : Lease) (capacity : Nat) :
    (p.resizePooled id l capacity).Agrees (p'.resizePooled (ρ id) (l.renumbered R) capacity) (Alike R K ρ) := by
  unfold Pool.resizePooled Lease.renumbered
  dsimp only
  split
  · split
    · exact agrees_ok.2 ⟨T.growInPlace mem capacity, rfl⟩
    · exact T.move mem capacity
  · split
    · exact agrees_ok.2 ⟨T.shrinkInPlace mem capacity, rfl⟩
    · exact T.move mem capacity

theorem Twins.setCapacity (T : Twins R K ρ p p') (mem : id ∈ K) (capacity : Nat) :
    (p.setCapacity id capacity).Agrees (p'.setCapacity (ρ id) capacity) (Alike R K ρ) := by
  unfold Pool.setCapacity
  rw [T.cores id mem]
  dsimp only
  rw [Core.maxCapacity_renumbered]
  split
  · exact agrees_pure.2 ⟨T, rfl⟩
  · refine Core.bound_renumbered.bind fun l l' same => ?_
    cases same
    rw [show (l.renumbered R).length = l.length from rfl, show (l.renumbered R).location = l.location from rfl]
    split
    · exact agrees_pure.2 ⟨T, rfl⟩
    · split
      · exact T.resizePooled mem l capacity
      · exact T.move mem capacity

/-! ## Bytes -/

theorem Twins.getBytes (T : Twins R K ρ p p') (mem : id ∈ K) (index length : Nat) :
    p'.getBytes (ρ id) index length = p.getBytes id index length := by
  unfold Pool.getBytes
  rw [T.cores id mem]
  dsimp only
  rw [Core.capacity_renumbered]
  unfold Core.bound Core.renumbered
  cases (p.core id).lease with
  | none => rfl
  | some l => simp only [Option.map_some, ok_bind, Lease.renumbered, Chunk.renumbered, T.arena.heap.read]

theorem Twins.setBytes (T : Twins R K ρ p p') (mem : id ∈ K) (index : Nat) (bytes : ByteArray) :
    (p.setBytes id index bytes).Agrees (p'.setBytes (ρ id) index bytes) (Alike R K ρ) := by
  unfold Pool.setBytes
  rw [T.cores id mem]
  dsimp only
  rw [Core.capacity_renumbered]
  split
  · exact agrees_pure.2 ⟨T, rfl⟩
  · refine Core.bound_renumbered.bind fun l l' same => ?_
    cases same
    refine .step fun position => .skip fun _ _ => agrees_pure.2 ⟨T.withHeap ?_, rfl⟩
    exact T.arena.heap.overwrite l.chunk.memory position bytes

end Pool

end BufferPool
