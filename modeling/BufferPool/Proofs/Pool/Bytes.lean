import BufferPool.Proofs.Pool.Resize

/-!
# The bytes of a core

Reading a range of a core answers with the bytes of `Pool.byte?`, and writing replaces exactly the range.
Both are refused where the range does not end inside the capacity, and then nothing has happened.
-/

namespace BufferPool

namespace Pool

variable {p p' : Pool} {id : CoreId} {l : Lease} {index length : Nat} {bytes : ByteArray}

/-- An operation on a core in use: the others are left alone, and the core stays in use. -/
structure Uses (p : Pool) (id : CoreId) (p' : Pool) : Prop where
  frame : p.Frame id p'
  course : p.Course p'
  bound : ∃ l, (p'.core id).lease = some l
  refs : (p'.core id).refs = (p.core id).refs
  ceiling : (p'.core id).maxCapacity = (p.core id).maxCapacity

theorem Uses.refl (W : p.Wf) (h : (p.core id).lease = some l) : p.Uses id p :=
  ⟨⟨.refl W, fun _ _ => rfl, fun _ _ _ => rfl⟩, (Rests.refl W).course, ⟨l, h⟩, rfl, rfl⟩

/-- Behind an operation comes one that moves no lease. -/
theorem Uses.trans {p'' : Pool} (u : p.Uses id p') (u' : p'.Uses id p'') (rests : p'.Rests p'') :
    p.Uses id p'' :=
  ⟨u.frame.trans u'.frame, u.course.rests rests, u'.bound, u'.refs.trans u.refs,
    u'.ceiling.trans u.ceiling⟩

theorem Resizes.uses {capacity : Nat} (r : p.Resizes id capacity p') : p.Uses id p' := by
  obtain ⟨l, -, core⟩ := r.core
  exact ⟨r.frame, r.course, ⟨l, by rw [core]⟩, by rw [core]; rfl, by rw [core]; rfl⟩

theorem Resizes.capacity_eq {capacity : Nat} (r : p.Resizes id capacity p') :
    (p'.core id).capacity = capacity := by
  obtain ⟨l, length, core⟩ := r.core
  rw [Core.capacity_eq (l := l) (by rw [core]), length]

/-- The cursors of a core in use are moved. -/
theorem uses_moveCursors (W : p.Wf) (h : (p.core id).lease = some l) {f : Core → Core}
    (same : (f (p.core id)).lease = some l) (fits : (f (p.core id)).Fits l)
    (refs : (f (p.core id)).refs = (p.core id).refs)
    (ceiling : (f (p.core id)).maxCapacity = (p.core id).maxCapacity) :
    p.Uses id (p.modifyCore id f) ∧ p.Rests (p.modifyCore id f) ∧
      (p.modifyCore id f).core id = f (p.core id) ∧
      ∀ k, (p.modifyCore id f).byte? id k = p.byte? id k := by
  have mine := core_modifyCore (lt_size_of_bound h) f id
  rw [if_pos rfl] at mine
  have lease : ((p.modifyCore id f).core id).lease = some l := by rw [mine, same]
  have frame := frame_modifyCore W h same fits
  have rests := rests_modifyCore frame.toSteady h (Core.region?_eq same)
  exact ⟨⟨frame, rests.course, ⟨l, lease⟩, by rw [mine, refs], by rw [mine, ceiling]⟩, rests, mine,
    fun k => byte?_modifyCore h same id k⟩

/-- The cores that stay in use keep their ceilings. -/
def KeepsCeilings (p p' : Pool) : Prop := ∀ id l l', (p.core id).lease = some l →
  (p'.core id).lease = some l' → (p'.core id).maxCapacity = (p.core id).maxCapacity

theorem keepsCeilings_of_cores (same : ∀ id l, (p.core id).lease = some l → p'.core id = p.core id) :
    p.KeepsCeilings p' := fun id l _ lease _ => by rw [same id l lease]

/-- An operation on one core keeps the ceilings if it keeps that of the core. -/
theorem Frame.keepsCeilings (frame : p.Frame id p')
    (own : ∀ l', (p'.core id).lease = some l' → (p'.core id).maxCapacity = (p.core id).maxCapacity) :
    p.KeepsCeilings p' := fun i l l' _ lease' => by
  by_cases same : i = id
  · subst same
    exact own l' lease'
  · rw [frame.cores i same]

theorem Uses.keepsCeilings (u : p.Uses id p') : p.KeepsCeilings p' :=
  u.frame.keepsCeilings fun _ _ => u.ceiling

/-- Every position of a buffer is below the limit of memories. -/
theorem Wf.length_lt (W : p.Wf) (h : (p.core id).lease = some l) :
    l.offset + l.length < Memory.limit := by
  obtain ⟨region, -, size⟩ := (W.held id l h).fits W.arena
  have limit := W.arena.bounded l.chunk.memory
  have := (W.cores id l h).region
  omega

/-- A capacity that was granted is below the limit of memories. -/
theorem Resizes.lt_limit {capacity : Nat} (r : p.Resizes id capacity p') : capacity < Memory.limit := by
  obtain ⟨l, length, core⟩ := r.core
  have limit := r.frame.wf.length_lt (l := l) (by rw [core])
  omega

/-- A range inside the length in use starts at a machine word and can be accessed. -/
theorem Wf.reaches (W : p.Wf) (h : (p.core id).lease = some l) {index length : Nat}
    (inside : index + length ≤ l.length) : Word.add l.offset index = .ok (l.offset + index) ∧
      p.arena.heap.check l.chunk.memory (l.offset + index) length = .ok () := by
  have region := (W.cores id l h).region
  obtain ⟨fits, -, size⟩ := (W.held id l h).fits W.arena
  constructor
  · apply Word.add_ok
    exact Memory.lt_bound (Nat.lt_of_le_of_lt (by omega) (W.length_lt h))
  · exact Heap.check_ok W.arena.bounded (by omega)

/-- The answer to reading a range that is inside. -/
def Reads (p : Pool) (id : CoreId) (index length : Nat) (answer : Answered ByteArray) : Prop :=
  ∃ data, answer = .ok data ∧ data.size = length ∧
    ∀ k < length, data.data[k]? = p.byte? id (index + k)

/-- A range is read from the region of the lease if it ends inside the length in use. -/
theorem getBytes_eq (W : p.Wf) (h : (p.core id).lease = some l) (index length : Nat) :
    p.getBytes id index length = .ok (if index + length ≤ l.length then
      .ok (p.arena.heap.slice l.chunk.memory (l.offset + index) length)
      else .error (.outOfBounds index length l.length)) := by
  unfold getBytes checkRange
  simp only [Core.capacity_eq h]
  by_cases inside : index + length ≤ l.length
  · obtain ⟨position, covered⟩ := W.reaches h inside
    simp only [if_pos inside, Core.bound_ok h, position, Heap.read, covered, Checked.ok_bind]
    rfl
  · simp only [if_neg inside]
    rfl

/-- Reading a range. -/
theorem getBytes_yields (W : p.Wf) (h : (p.core id).lease = some l) (index length : Nat) :
    (p.getBytes id index length).Yields fun r =>
      (l.length < index + length ∧ ∃ refusal, r = .error refusal) ∨
      index + length ≤ l.length ∧ p.Reads id index length r := by
  refine ⟨_, getBytes_eq W h index length, ?_⟩
  split
  · rename_i inside
    refine .inr ⟨inside, _, rfl, Heap.size_slice, fun k hk => ?_⟩
    rw [Heap.data_slice hk, byte?_eq h (by omega), Nat.add_assoc]
  · rename_i beyond
    exact .inl ⟨Nat.lt_of_not_le beyond, _, rfl⟩

/-- What writing bytes to a range of a core does, possibly after a change of its capacity. -/
structure Puts (p : Pool) (id : CoreId) (index : Nat) (bytes : ByteArray) (p' : Pool) : Prop where
  uses : p.Uses id p'
  inside : index + bytes.size ≤ (p'.core id).capacity
  put : ∀ k, index ≤ k → k < index + bytes.size → p'.byte? id k = bytes.data[k - index]?
  kept : ∀ k, k < (p.core id).capacity → k < (p'.core id).capacity →
    ¬ (index ≤ k ∧ k < index + bytes.size) → p'.byte? id k = p.byte? id k

/-- A range is written in the region of the lease if it ends inside the length in use. -/
theorem setBytes_eq (W : p.Wf) (h : (p.core id).lease = some l) (index : Nat) (bytes : ByteArray) :
    p.setBytes id index bytes = .ok (if index + bytes.size ≤ l.length then
      (p.modifyHeap fun heap => heap.overwrite l.chunk.memory (l.offset + index) bytes, .ok ())
      else (p, .error (.outOfBounds index bytes.size l.length))) := by
  unfold setBytes checkRange
  simp only [Core.capacity_eq h]
  by_cases inside : index + bytes.size ≤ l.length
  · obtain ⟨position, covered⟩ := W.reaches h inside
    simp only [if_pos inside, Core.bound_ok h, position, covered, Checked.ok_bind]
    rfl
  · simp only [if_neg inside]
    rfl

/-- Writing a range. -/
theorem setBytes_yields (W : p.Wf) (h : (p.core id).lease = some l) (index : Nat) (bytes : ByteArray) :
    (p.setBytes id index bytes).Yields fun r =>
      (l.length < index + bytes.size ∧ ∃ refusal, r = (p, .error refusal)) ∨
      index + bytes.size ≤ l.length ∧ r.2 = .ok () ∧ r.1.core id = p.core id ∧ p.Rests r.1 ∧
        p.Puts id index bytes r.1 := by
  have region := (W.cores id l h).region
  obtain ⟨-, named, -⟩ := (W.held id l h).fits W.arena
  refine ⟨_, setBytes_eq W h index bytes, ?_⟩
  split
  · rename_i inside
    set p' := p.modifyHeap fun heap => heap.overwrite l.chunk.memory (l.offset + index) bytes with e
    have books : p.arena.SameBooks p'.arena :=
      ⟨rfl, rfl, rfl, rfl, rfl, rfl, Heap.sameShape_overwrite⟩
    have wf : p'.Wf := W.sameBooks books rfl rfl (fun _ => rfl) rfl
    have lease : (p'.core id).lease = some l := h
    have others : ∀ i, i ≠ id → ∀ k, p'.byte? i k = p.byte? i k := fun i ne k => by
      refine byte?_congr rfl fun k' hk below => ?_
      have apart := W.apart id i l k' (Ne.symm ne) h hk
      have region' := (W.cores i k' hk).region
      change (p.arena.heap.overwrite _ _ _).byteAt _ _ = _
      rw [Heap.byteAt_overwrite named]
      split
      · rename_i hit
        exact absurd ⟨hit.1, rfl⟩
          (outside_of_apart apart (by omega) (by omega) (Nat.le_add_right _ k) (by omega))
      · rfl
    have written : ∀ k < l.length, p'.byte? id k =
        some (if index ≤ k ∧ k < index + bytes.size then bytes.data[k - index]?.getD 0
          else p.arena.heap.byteAt l.chunk.memory (l.offset + k)) := fun k hk => by
      rw [byte?_eq lease hk]
      change some ((p.arena.heap.overwrite _ _ _).byteAt _ _) = _
      rw [Heap.byteAt_overwrite named]
      by_cases range : index ≤ k ∧ k < index + bytes.size
      · rw [if_pos ⟨rfl, by omega, by omega⟩, if_pos range,
          show l.offset + k - (l.offset + index) = k - index by omega]
      · rw [if_neg (by omega), if_neg range]
    have steady : p.Steady p' := ⟨wf, rfl, rfl, fun S => S⟩
    have rests : p.Rests p' := rests_of_cores steady (fun _ => rfl) ⟨⟨rfl, rfl, rfl, rfl⟩, rfl⟩ rfl
    refine .inr ⟨inside, rfl, rfl, rests,
      ⟨⟨steady, fun _ _ => rfl, others⟩, rests.course, ⟨l, lease⟩, rfl, rfl⟩, ?_, fun k low high => ?_,
      fun k hk _ out => ?_⟩
    · rw [Core.capacity_eq lease]
      exact inside
    · have stored : k - index < bytes.data.size := by
        change k - index < bytes.size
        omega
      rw [written k (by omega), if_pos ⟨low, high⟩, Array.getElem?_eq_getElem stored]
      rfl
    · rw [Core.capacity_eq h] at hk
      rw [written k hk, if_neg out, byte?_eq h hk]
  · rename_i beyond
    exact .inl ⟨Nat.lt_of_not_le beyond, _, rfl⟩

end Pool

end BufferPool
