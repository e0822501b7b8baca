import Mathlib.Tactic.ByContra
import BufferPool.Memory
import BufferPool.Proofs.Checked

/-!
# Bytes of the backing memory

A memory is seen through `Memory.byteAt`: what `slice` collects and what `overwrite` replaces. A heap
keeps all memories apart; getting one more leaves those before it as they are.
-/

namespace BufferPool

@[simp] theorem data_zeroBytes (n : Nat) : (zeroBytes n).data = Array.replicate n 0 := by
  have pushed : ∀ bytes : ByteArray, bytes.data = #[] →
      (n.fold (fun _ _ bytes => bytes.push 0) bytes).data = Array.replicate n 0 := by
    intro bytes empty
    induction n with
    | zero => exact empty
    | succ n ih => rw [Nat.fold_succ, ByteArray.data_push, ih, Array.replicate_succ]
  exact pushed _ rfl

namespace Memory

variable {m : Memory} {position length i k : Nat} {bytes : ByteArray}

/-- Every position in a memory is a machine word. -/
theorem lt_bound {n : Nat} (h : n < limit) : n < Word.bound :=
  Nat.lt_trans h (by decide)

theorem byteAt_eq : m.byteAt i = m.stored.data[i]?.getD 0 := by
  unfold byteAt
  split
  · rename_i inside
    rw [Array.getElem?_eq_getElem (show i < m.stored.data.size from inside)]
    rfl
  · rename_i outside
    rw [Array.getElem?_eq_none (show m.stored.data.size ≤ i from Nat.le_of_not_lt outside)]
    rfl

/-- A slice has the length asked for. -/
theorem size_slice : (m.slice position length).size = length := by
  unfold slice
  have found := ByteArray.size_extract (a := m.stored) (b := position) (e := position + length)
  simp only
  split
  · assumption
  · have zeros : (zeroBytes (length - (m.stored.extract position (position + length)).size)).size =
        length - (m.stored.extract position (position + length)).size := by
      rw [← ByteArray.size_data, data_zeroBytes, Array.size_replicate]
    rw [ByteArray.size_append, zeros]
    omega

/-- The bytes of a slice are those of the memory. -/
theorem data_slice (h : k < length) :
    (m.slice position length).data[k]? = some (m.byteAt (position + k)) := by
  have found : ∀ j, (m.stored.extract position (position + length)).data[j]? =
      if j < min (position + length) m.stored.size - position then m.stored.data[position + j]?
      else none := by
    intro j
    rw [ByteArray.data_extract, Array.getElem?_extract]
    rfl
  have size := ByteArray.size_extract (a := m.stored) (b := position) (e := position + length)
  rw [byteAt_eq]
  have full : ∀ j, j < m.stored.size → m.stored.data[j]? = some (m.stored.data[j]?.getD 0) := by
    intro j hj
    rw [Array.getElem?_eq_getElem (show j < m.stored.data.size from hj)]
    rfl
  unfold slice
  simp only
  split
  · rename_i whole
    rw [found, if_pos (by omega)]
    exact full _ (by omega)
  · rw [ByteArray.data_append, Array.getElem?_append]
    split
    · rename_i inside
      rw [ByteArray.size_data] at inside
      rw [found, if_pos (by omega)]
      exact full _ (by omega)
    · rename_i outside
      rw [ByteArray.size_data] at outside ⊢
      have beyond : m.stored.data.size ≤ position + k := by
        rw [ByteArray.size_data]
        omega
      rw [data_zeroBytes, Array.getElem?_replicate, if_pos (by omega),
        Array.getElem?_eq_none beyond]
      rfl

@[simp] theorem size_overwrite : (m.overwrite position bytes).size = m.size := rfl

/-- Writing replaces the bytes of the range and no others. -/
theorem byteAt_overwrite : (m.overwrite position bytes).byteAt i =
    if position ≤ i ∧ i < position + bytes.size then bytes.data[i - position]?.getD 0
    else m.byteAt i := by
  have kept : ∀ stored : ByteArray, position + bytes.size ≤ stored.size →
      (∀ j, stored.data[j]?.getD 0 = m.byteAt j) → ∀ j,
      (bytes.copySlice 0 stored position bytes.size).data[j]?.getD 0 =
        if position ≤ j ∧ j < position + bytes.size then bytes.data[j - position]?.getD 0
        else m.byteAt j := by
    intro stored room same j
    rw [ByteArray.copySlice]
    have whole : bytes.data.size = bytes.size := rfl
    have all : stored.data.size = stored.size := rfl
    simp only [Nat.zero_add, Nat.sub_zero, whole, Nat.min_self, Array.getElem?_append,
      Array.getElem?_extract, Array.size_append, Array.size_extract, all]
    rw [← same j]
    by_cases before : j < position
    · rw [if_pos (by omega), if_pos (by omega), if_pos (by omega), if_neg (by omega)]
    · by_cases inside : j < position + bytes.size
      · rw [if_pos (by omega), if_neg (by omega), if_pos (by omega), if_pos (by omega)]
        congr 3
        omega
      · by_cases below : j < stored.size
        · rw [if_neg (by omega), if_pos (by omega), if_neg (by omega)]
          congr 2
          omega
        · rw [if_neg (by omega), if_neg (by omega), if_neg (by omega),
            Array.getElem?_eq_none (by rw [all]; omega)]
  rw [byteAt_eq, overwrite]
  simp only
  split
  · exact kept _ (by omega) (fun j => byteAt_eq.symm) i
  · refine kept _ ?_ (fun j => ?_) i
    · rw [ByteArray.size_append, ← ByteArray.size_data (a := zeroBytes _), data_zeroBytes,
        Array.size_replicate]
      omega
    · rw [byteAt_eq, ByteArray.data_append, Array.getElem?_append, data_zeroBytes,
        Array.getElem?_replicate]
      split
      · rfl
      · rename_i beyond
        rw [Array.getElem?_eq_none (Nat.le_of_not_lt beyond)]
        split <;> rfl

end Memory

namespace Heap

variable {h h' : Heap} {block b : BlockId} {position length i k size : Nat} {bytes : ByteArray}

/-- The byte at a position of one memory. -/
def byteAt (h : Heap) (block : BlockId) (i : Nat) : UInt8 := (h.get block).byteAt i

/-- No memory is larger than any that can be had. -/
def Bounded (h : Heap) : Prop := ∀ b, (h.get b).size < Memory.limit

/-- A heap in which the memories of another one are found unchanged. -/
structure Extends (h h' : Heap) : Prop where
  size : h.blocks.size ≤ h'.blocks.size
  get : ∀ b, b < h.blocks.size → h'.get b = h.get b

/-- Two heaps with memories of the same sizes. -/
structure SameShape (h h' : Heap) : Prop where
  size : h'.blocks.size = h.blocks.size
  memory : ∀ b, (h'.get b).size = (h.get b).size

theorem get_of_blocks (e : h'.blocks = h.blocks) (b : BlockId) : h'.get b = h.get b := by
  rw [get, e, get]

theorem extends_of_blocks (e : h'.blocks = h.blocks) : h.Extends h' :=
  ⟨Nat.le_of_eq (by rw [e]), fun b _ => get_of_blocks e b⟩

theorem Extends.trans {h'' : Heap} (e : h.Extends h') (e' : h'.Extends h'') : h.Extends h'' :=
  ⟨Nat.le_trans e.size e'.size, fun b hb =>
    (e'.get b (Nat.lt_of_lt_of_le hb e.size)).trans (e.get b hb)⟩

theorem get_push {m : Memory} (e : h'.blocks = h.blocks.push m) (b : BlockId) :
    h'.get b = if b = h.blocks.size then m else h.get b := by
  rw [get, e, Array.getElem?_push]
  split <;> rfl

/-- Either no memory can be had, or the heap has one more of the size asked for. -/
theorem obtain?_cases (h : Heap) (size : Nat) :
    (∃ h', h.obtain? size = (h', none) ∧ h'.blocks = h.blocks) ∨
      ∃ h', h.obtain? size = (h', some h.blocks.size) ∧
        h'.blocks = h.blocks.push ⟨size, .empty⟩ ∧ size < Memory.limit := by
  unfold obtain? Memory.zeroed?
  by_cases refused : h.refuses h.attempts size = true
  · rw [if_pos refused]
    exact .inl ⟨_, rfl, rfl⟩
  · rw [if_neg refused]
    by_cases fits : size < Memory.limit
    · rw [if_pos fits]
      exact .inr ⟨_, rfl, rfl, fits⟩
    · rw [if_neg fits]
      exact .inl ⟨_, rfl, rfl⟩

/-- A memory that is not too large is had unless the system refuses it. -/
theorem obtain?_of_supplied {h : Heap} {size : Nat} (supplied : h.refuses h.attempts size = false)
    (fits : size < Memory.limit) : ∃ h', h.obtain? size = (h', some h.blocks.size) := by
  unfold obtain? Memory.zeroed?
  rw [if_neg (by rw [supplied]; exact Bool.false_ne_true), if_pos fits]
  exact ⟨_, rfl⟩

theorem extends_of_push {m : Memory} (e : h'.blocks = h.blocks.push m) : h.Extends h' where
  size := by rw [e, Array.size_push]; exact Nat.le_succ _
  get b hb := by rw [get_push e, if_neg (Nat.ne_of_lt hb)]

theorem Bounded.push (bounded : h.Bounded) (e : h'.blocks = h.blocks.push ⟨size, .empty⟩)
    (fits : size < Memory.limit) : h'.Bounded := by
  intro b
  rw [get_push e]
  split
  · exact fits
  · exact bounded b

theorem Bounded.sameShape (bounded : h.Bounded) (same : h.SameShape h') : h'.Bounded :=
  fun b => by rw [same.memory]; exact bounded b

theorem get_overwrite (hb : block < h.blocks.size) : (h.overwrite block position bytes).get b =
    if b = block then (h.get block).overwrite position bytes else h.get b := by
  simp only [get, overwrite, Array.getElem?_modify]
  by_cases same : b = block
  · subst same
    simp [hb]
  · rw [if_neg (Ne.symm same), if_neg same]

theorem sameShape_overwrite : h.SameShape (h.overwrite block position bytes) where
  size := by simp [overwrite]
  memory b := by
    simp only [get, overwrite, Array.getElem?_modify]
    split
    · rename_i same
      subst same
      cases h.blocks[block]? <;> rfl
    · rfl

/-- Writing replaces the bytes of a range of one memory and no others. -/
theorem byteAt_overwrite (hb : block < h.blocks.size) :
    (h.overwrite block position bytes).byteAt b i =
      if b = block ∧ position ≤ i ∧ i < position + bytes.size then bytes.data[i - position]?.getD 0
      else h.byteAt b i := by
  rw [byteAt, get_overwrite hb]
  by_cases same : b = block
  · subst same
    rw [if_pos rfl, Memory.byteAt_overwrite]
    simp only [true_and]
    rfl
  · rw [if_neg same, if_neg fun e => same e.1]
    rfl

theorem data_slice (hk : k < length) :
    (h.slice block position length).data[k]? = some (h.byteAt block (position + k)) :=
  Memory.data_slice hk

@[simp] theorem size_slice : (h.slice block position length).size = length :=
  Memory.size_slice

/-- A transfer makes the target range read as the source range did before. -/
theorem byteAt_transfer {target : BlockId} {goal : Nat} (hb : target < h.blocks.size) :
    (h.transfer block position target goal length).byteAt b i =
      if b = target ∧ goal ≤ i ∧ i < goal + length then h.byteAt block (position + (i - goal))
      else h.byteAt b i := by
  unfold transfer
  rw [byteAt_overwrite hb, size_slice]
  split
  · rename_i inside
    rw [data_slice (by omega)]
    rfl
  · rfl

/-- An access inside a memory passes its check. -/
theorem check_ok (bounded : h.Bounded) (inside : position + length ≤ (h.get block).size) :
    h.check block position length = .ok () := by
  have limit := bounded block
  apply Checked.guard_ok
  have small : position + length < Word.bound := Memory.lt_bound (Nat.lt_of_le_of_lt inside limit)
  simp [Memory.covers, inside, small]

end Heap

end BufferPool
