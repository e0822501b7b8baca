import BufferPool.Pool
import BufferPool.Proofs.Arena.Figures
import BufferPool.Proofs.Arena.Lease
import BufferPool.Proofs.Arena.Start

/-!
# The invariant of the pool

In a well-formed pool (`Pool.Wf`) the arena accounts for the lease of every bound core, these leases are
pairwise apart, as many are counted as there are pooled ones, and the idle cores have none. A buffer is
seen as `Pool.byte?`, its bytes by index. Since leases are apart, an operation on one core leaves the
bytes of the others alone.
-/

namespace BufferPool

/-- Whether a core has a pooled lease, as a number. -/
def Core.pooled (c : Core) : Nat :=
  match c.lease with
  | some l => if l.location = .unpooled then 0 else 1
  | none => 0

/-- The cursors and the ceiling of a core agree with its lease. -/
structure Core.Fits (c : Core) (l : Lease) : Prop where
  ordered : c.reader ≤ c.writer
  inside : c.writer ≤ l.length
  region : l.length ≤ l.maxLength
  ceiling : l.length ≤ c.maxCapacity

theorem Core.capacity_eq {c : Core} {l : Lease} (h : c.lease = some l) : c.capacity = l.length := by
  rw [capacity, h]

theorem Core.bound_ok {c : Core} {l : Lease} (h : c.lease = some l) : c.bound = .ok l := by
  rw [bound, h]

theorem Core.isBound_of_lease {c : Core} {l : Lease} (h : c.lease = some l) : c.isBound = true := by
  rw [isBound, h]
  rfl

theorem Core.pooled_eq {c : Core} {l : Lease} (h : c.lease = some l) :
    c.pooled = if l.location = .unpooled then 0 else 1 := by
  rw [pooled, h]

theorem Core.pooled_none {c : Core} (h : c.lease = none) : c.pooled = 0 := by
  rw [pooled, h]

/-- A range is inside or refused. -/
theorem checkRange_cases (index length capacity : Nat) :
    (index + length ≤ capacity ∧ checkRange index length capacity = .ok ()) ∨
      (capacity < index + length ∧ ∃ refusal, checkRange index length capacity = .error refusal) := by
  unfold checkRange
  split
  · exact .inl ⟨by assumption, rfl⟩
  · exact .inr ⟨Nat.lt_of_not_le (by assumption), _, rfl⟩

/-- Cursors are in order and inside, or refused. -/
theorem checkCursors_cases (reader writer capacity : Nat) :
    (reader ≤ writer ∧ writer ≤ capacity ∧ checkCursors reader writer capacity = .ok ()) ∨
      ∃ refusal, checkCursors reader writer capacity = .error refusal := by
  unfold checkCursors
  split
  · rename_i inside
    exact .inl ⟨inside.1, inside.2, rfl⟩
  · exact .inr ⟨_, rfl⟩

/-! ## Stores -/

namespace CoreStore

variable {s : CoreStore} {id : CoreId} {f : Core → Core}

theorem get_modify (h : id < s.cores.size) (i : CoreId) :
    (s.modify id f).get i = if i = id then f (s.get id) else s.get i := by
  simp only [get, modify, Array.getElem?_modify]
  by_cases same : i = id
  · subst same
    simp [h]
  · rw [if_neg (Ne.symm same), if_neg same]

@[simp] theorem size_modify : (s.modify id f).cores.size = s.cores.size := by
  simp [modify]

theorem get_add (c : Core) (i : CoreId) :
    (s.add c).1.get i = if i = s.cores.size then c else s.get i := by
  simp only [get, add, Array.getElem?_push]
  split <;> rfl

theorem get_of_size_le (h : s.cores.size ≤ id) : s.get id = .blank := by
  rw [get, Array.getElem?_eq_none h]
  rfl

end CoreStore

namespace Pool

variable {p p' : Pool} {id : CoreId} {l : Lease}

theorem lt_size_of_bound (h : (p.core id).lease = some l) : id < p.store.cores.size := by
  by_contra beyond
  rw [core, CoreStore.get_of_size_le (Nat.le_of_not_lt beyond)] at h
  cases h

theorem core_modifyCore (h : id < p.store.cores.size) (f : Core → Core) (i : CoreId) :
    (p.modifyCore id f).core i = if i = id then f (p.core id) else p.core i :=
  CoreStore.get_modify h i

/-- A pool whose cores, leases and arena agree. -/
structure Wf (p : Pool) : Prop where
  arena : p.arena.Wf
  held : ∀ i l, (p.core i).lease = some l → p.arena.Backs l
  apart : ∀ i j l k, i ≠ j → (p.core i).lease = some l → (p.core j).lease = some k → l.Apart k
  cores : ∀ i l, (p.core i).lease = some l → (p.core i).Fits l
  counted : p.arena.activeLeases = ∑ i ∈ Finset.range p.store.cores.size, (p.core i).pooled
  idle : ∀ i ∈ p.store.recycler.idle, i < p.store.cores.size ∧ (p.core i).lease = none
  once : p.store.recycler.idle.Nodup
  room : p.store.recycler.idle.length ≤ p.store.recycler.capacity

/-- The byte of a buffer at an index, none outside of it. -/
def byte? (p : Pool) (id : CoreId) (index : Nat) : Option UInt8 :=
  match (p.core id).lease with
  | some l => if index < l.length then some (p.arena.heap.byteAt l.chunk.memory (l.offset + index)) else none
  | none => none

theorem byte?_eq (h : (p.core id).lease = some l) {index : Nat} (inside : index < l.length) :
    p.byte? id index = some (p.arena.heap.byteAt l.chunk.memory (l.offset + index)) := by
  rw [byte?, h]
  exact if_pos inside

/-- Every lease has the region that a request for its length gets. -/
def Sized (p : Pool) : Prop := ∀ i l, (p.core i).lease = some l → l.Sized p.config.chunkSize

/-- The leases that are not as before have such regions. -/
theorem Sized.of_new (S : p.Sized) (config : p'.config = p.config) (new : ∀ i l, (p'.core i).lease = some l →
    (p.core i).lease = some l ∨ l.Sized p.config.chunkSize) : p'.Sized := fun i l lease => by
  rw [config]
  exact (new i l lease).elim (S i l) id

/-- No lease is new. -/
theorem Sized.of_kept (S : p.Sized) (config : p'.config = p.config)
    (kept : ∀ i l, (p'.core i).lease = some l → (p.core i).lease = some l) : p'.Sized :=
  S.of_new config fun i l lease => .inl (kept i l lease)

/-- What no operation changes: the invariant, the configuration, the room for idle cores, and that the leases
have the regions of new ones. -/
structure Steady (p p' : Pool) : Prop where
  wf : p'.Wf
  config : p'.config = p.config
  room : p'.store.recycler.capacity = p.store.recycler.capacity
  sized : p.Sized → p'.Sized

theorem Steady.refl (W : p.Wf) : p.Steady p := ⟨W, rfl, rfl, id⟩

theorem Steady.trans {p'' : Pool} (h : p.Steady p') (h' : p'.Steady p'') : p.Steady p'' where
  wf := h'.wf
  config := h'.config.trans h.config
  room := h'.room.trans h.room
  sized S := h'.sized (h.sized S)

/-- An operation on core `id` leaves the other cores and their bytes as they were. -/
structure Frame (p : Pool) (id : CoreId) (p' : Pool) : Prop extends Steady p p' where
  cores : ∀ i, i ≠ id → p'.core i = p.core i
  bytes : ∀ i, i ≠ id → ∀ k, p'.byte? i k = p.byte? i k

/-- The invariant after a change of one core and of the arena. -/
theorem Wf.change (W : p.Wf) (inside : id < p.store.cores.size)
    (size : p'.store.cores.size = p.store.cores.size)
    (cores : ∀ i, i ≠ id → p'.core i = p.core i) (arena : p'.arena.Wf)
    (kept : ∀ i k, i ≠ id → (p.core i).lease = some k → p'.arena.Backs k)
    (mine : ∀ l, (p'.core id).lease = some l → p'.arena.Backs l ∧ (p'.core id).Fits l ∧
      ∀ i k, i ≠ id → (p.core i).lease = some k → l.Apart k)
    (count : p'.arena.activeLeases + (p.core id).pooled =
      p.arena.activeLeases + (p'.core id).pooled)
    (idle : ∀ i ∈ p'.store.recycler.idle, i < p'.store.cores.size ∧ (p'.core i).lease = none)
    (once : p'.store.recycler.idle.Nodup)
    (room : p'.store.recycler.idle.length ≤ p'.store.recycler.capacity) : p'.Wf where
  arena := arena
  held i l hl := by
    by_cases e : i = id
    · subst e
      exact (mine l hl).1
    · rw [cores i e] at hl
      exact kept i l e hl
  apart i j l k ne hl hk := by
    by_cases ei : i = id
    · subst ei
      rw [cores j (Ne.symm ne)] at hk
      exact (mine l hl).2.2 j k (Ne.symm ne) hk
    · rw [cores i ei] at hl
      by_cases ej : j = id
      · subst ej
        exact ((mine k hk).2.2 i l ei hl).symm
      · rw [cores j ej] at hk
        exact W.apart i j l k ne hl hk
  cores i l hl := by
    by_cases e : i = id
    · subst e
      exact (mine l hl).2.1
    · rw [cores i e] at hl ⊢
      exact W.cores i l hl
  counted := by
    have sum := PageMap.sum_run inside (f := fun i => (p.core i).pooled)
      (g := fun i => (p'.core i).pooled) fun i ne => by rw [cores i ne]
    have counted := W.counted
    rw [size]
    omega
  idle := idle
  once := once
  room := room

/-- A bound core does not wait. -/
theorem Wf.busy (W : p.Wf) (h : (p.core id).lease = some l) : id ∉ p.store.recycler.idle := by
  intro waits
  rw [(W.idle id waits).2] at h
  cases h

/-- The invariant after a change of one core that does not wait, and of the arena. -/
theorem Wf.change_busy (W : p.Wf) (busy : id ∉ p.store.recycler.idle) (inside : id < p.store.cores.size)
    (size : p'.store.cores.size = p.store.cores.size)
    (recycler : p'.store.recycler = p.store.recycler)
    (cores : ∀ i, i ≠ id → p'.core i = p.core i) (arena : p'.arena.Wf)
    (kept : ∀ i k, i ≠ id → (p.core i).lease = some k → p'.arena.Backs k)
    (mine : ∀ l, (p'.core id).lease = some l → p'.arena.Backs l ∧ (p'.core id).Fits l ∧
      ∀ i k, i ≠ id → (p.core i).lease = some k → l.Apart k)
    (count : p'.arena.activeLeases + (p.core id).pooled =
      p.arena.activeLeases + (p'.core id).pooled) : p'.Wf := by
  refine W.change inside size cores arena kept mine count (fun i hi => ?_)
    (by rw [recycler]; exact W.once) (by rw [recycler]; exact W.room)
  rw [recycler] at hi
  have ne : i ≠ id := by
    intro equal
    subst equal
    exact busy hi
  rw [size, cores i ne]
  exact W.idle i hi

/-- The bytes of a core whose lease and whose region of the heap are as before. -/
theorem byte?_congr {i : CoreId} {k : Nat} (core : (p'.core i).lease = (p.core i).lease)
    (heap : ∀ l, (p.core i).lease = some l → k < l.length →
      p'.arena.heap.byteAt l.chunk.memory (l.offset + k) =
        p.arena.heap.byteAt l.chunk.memory (l.offset + k)) : p'.byte? i k = p.byte? i k := by
  unfold byte?
  rw [core]
  cases lease : (p.core i).lease with
  | none => rfl
  | some l =>
    simp only
    split
    · rename_i inside
      rw [heap l lease inside]
    · rfl

/-- Writing to the region of a lease leaves the region of a lease that is apart as it was. -/
theorem outside_of_apart {k : Lease} {i j : Nat} (apart : l.Apart k) (hi : l.offset ≤ i)
    (hi' : i < l.offset + l.maxLength) (hj : k.offset ≤ j) (hj' : j < k.offset + k.maxLength) :
    ¬ (k.chunk.memory = l.chunk.memory ∧ j = i) := by
  intro outcome
  obtain ⟨memory, rfl⟩ := outcome
  rcases apart with h | h | h
  · exact h memory.symm
  · omega
  · omega

/-- A new pool is well formed. -/
theorem wf_ofConfig {config : PoolConfig} (exactly : config.Exact) (supply : Supply) :
    (ofConfig config supply).Wf := by
  have blank : ∀ i, (ofConfig config supply).core i = .blank := fun i =>
    CoreStore.get_of_size_le (Nat.zero_le i)
  refine ⟨Arena.wf_ofConfig exactly supply, fun i l hl => ?_, fun i j l k _ hl => ?_,
    fun i l hl => ?_, rfl, fun i hi => (by cases hi), List.nodup_nil, Nat.zero_le _⟩
  · rw [blank] at hl
    cases hl
  · rw [blank] at hl
    cases hl
  · rw [blank] at hl
    cases hl

/-- A new pool has no leases. -/
theorem sized_ofConfig (config : PoolConfig) (supply : Supply) : (ofConfig config supply).Sized :=
  fun i l lease => by
    rw [show (ofConfig config supply).core i = .blank from CoreStore.get_of_size_le (Nat.zero_le i)] at lease
    cases lease

/-- The figures of a well-formed pool can be read. -/
theorem Wf.stats_ok (W : p.Wf) : ∃ stats, p.stats = .ok stats ∧
    stats.activeLeases = ∑ i ∈ Finset.range p.store.cores.size, (p.core i).pooled := by
  unfold stats
  rw [Arena.usedPages_eq W.arena, Arena.activeSubpages_eq W.arena]
  exact ⟨_, rfl, W.counted⟩

end Pool

end BufferPool
