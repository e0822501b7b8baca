import BufferPool.Buffer
import BufferPool.Proofs.Pool.Bytes
import BufferPool.Proofs.Pool.Shortage
import BufferPool.Proofs.Size.Growth

/-!
# Buffers

The operations of a buffer in a well-formed pool. Each one succeeds or is refused, and no check fails:
the cursors are in order and inside the capacity, and every position is far below the end of the machine
words.
-/

namespace BufferPool

/-- The sum of two sizes of memories is not cut off. -/
theorem Word.addClamped_of_lt_limit {a b : Nat} (ha : a < Memory.limit) (hb : b < Memory.limit) :
    Word.addClamped a b = a + b := by
  have twice : 2 * Memory.limit = Word.max + 1 := by decide
  exact Nat.min_eq_left (by omega)

/-- A sum that stays below the limit of memories was not cut off. -/
theorem Word.addClamped_eq {a b : Nat} (h : Word.addClamped a b < Memory.limit) :
    a + b < Word.bound ∧ Word.addClamped a b = a + b := by
  have limit : Memory.limit ≤ Word.max := by decide
  have bound : Word.bound = Word.max + 1 := by decide
  unfold addClamped at h ⊢
  omega

namespace Buffer

variable {b : Buffer} {p : Pool} {l : Lease}

theorem capacity_eq (h : (p.core b.core).lease = some l) : b.capacity p = l.length :=
  Core.capacity_eq h

/-- The cursors of a buffer are set or refused. -/
theorem setIndex_cases (W : p.Wf) (h : (p.core b.core).lease = some l) (reader writer : Nat) :
    (∃ refusal, b.setIndex p reader writer = (p, .error refusal)) ∨
      ((b.setIndex p reader writer).2 = .ok () ∧ p.Uses b.core (b.setIndex p reader writer).1 ∧
        (b.setIndex p reader writer).1.core b.core =
          { p.core b.core with reader := reader, writer := writer } ∧
        ∀ k, (b.setIndex p reader writer).1.byte? b.core k = p.byte? b.core k) := by
  unfold setIndex
  rw [capacity_eq h]
  rcases checkCursors_cases reader writer l.length with ⟨ordered, inside, passed⟩ | ⟨refusal, refused⟩
  · rw [passed]
    have fits := W.cores _ l h
    obtain ⟨uses, -, moved, same⟩ := Pool.uses_moveCursors W h
      (f := fun c => { c with reader := reader, writer := writer }) h
      ⟨ordered, inside, fits.region, fits.ceiling⟩ rfl rfl
    exact .inr ⟨rfl, uses, moved, same⟩
  · rw [refused]
    exact .inl ⟨refusal, rfl⟩

/-- What a request for room that has to grow the buffer does once it is granted. -/
structure Grown (b : Buffer) (p : Pool) (additional : Nat) (p' : Pool) : Prop where
  word : (p.core b.core).writer + additional < Word.bound
  ceiling : (p.core b.core).writer + additional ≤ (p.core b.core).maxCapacity
  resizes : p.Resizes b.core
    (Size.grown ((p.core b.core).writer + additional) (p.core b.core).maxCapacity) p'

/-- A change to the capacity that growth chooses is granted, or refused for want of memory. -/
theorem grows_yields (W : p.Wf) (h : (p.core b.core).lease = some l) {additional : Nat}
    (ceiling : Word.addClamped (p.core b.core).writer additional ≤ (p.core b.core).maxCapacity) :
    (p.setCapacity b.core (Size.grown (Word.addClamped (p.core b.core).writer additional)
      (p.core b.core).maxCapacity)).Yields fun r =>
        (∃ refusal, r.2 = .error refusal ∧ refusal.isShortage = true ∧ p.Declines r.1) ∨
        r.2 = .ok () ∧ b.Grown p additional r.1 := by
  have short := Pool.setCapacity_short p b.core (Size.grown_le ceiling)
  apply ((Pool.setCapacity_yields W h _).and_gives short).mono
  intro r ⟨outcome, short⟩
  rcases outcome with ⟨refusal, refused, same⟩ | ⟨answer, resizes⟩
  · exact .inl ⟨refusal, refused, short refusal refused, same⟩
  · have reached := Size.le_grown ceiling
    obtain ⟨word, whole⟩ := Word.addClamped_eq (Nat.lt_of_le_of_lt reached resizes.lt_limit)
    rw [whole] at ceiling resizes
    exact .inr ⟨answer, word, ceiling, resizes⟩

/-- What becomes of a request for room: there is enough, there cannot be, or the buffer has to grow. -/
theorem ensureWritable_cases (W : p.Wf) (h : (p.core b.core).lease = some l) (additional : Nat) :
    additional ≤ l.length - (p.core b.core).writer ∧ b.ensureWritable p additional = .ok (p, .ok ()) ∨
    l.length - (p.core b.core).writer < additional ∧
      (p.core b.core).maxCapacity < Word.addClamped (p.core b.core).writer additional ∧
      b.ensureWritable p additional = .ok (p, .error (.capacityExceeded
        (Word.addClamped (p.core b.core).writer additional) (p.core b.core).maxCapacity)) ∨
    l.length - (p.core b.core).writer < additional ∧
      Word.addClamped (p.core b.core).writer additional ≤ (p.core b.core).maxCapacity ∧
      (b.ensureWritable p additional).Yields fun r =>
        (∃ refusal, r.2 = .error refusal ∧ refusal.isShortage = true ∧ p.Declines r.1) ∨
        r.2 = .ok () ∧ b.Grown p additional r.1 := by
  have fits := W.cores _ l h
  have writable : (p.core b.core).writable = .ok (l.length - (p.core b.core).writer) := by
    rw [Core.writable, Core.capacity_eq h, Word.sub_ok fits.inside]
  unfold ensureWritable
  simp only [writable, Checked.ok_bind]
  by_cases enough : additional ≤ l.length - (p.core b.core).writer
  · rw [if_pos enough]
    exact .inl ⟨enough, rfl⟩
  have more := Nat.lt_of_not_le enough
  rw [if_neg enough]
  by_cases beyond : (p.core b.core).maxCapacity < Word.addClamped (p.core b.core).writer additional
  · rw [if_pos beyond]
    exact .inr (.inl ⟨more, beyond, rfl⟩)
  · rw [if_neg beyond]
    have ceiling := Nat.le_of_not_lt beyond
    exact .inr (.inr ⟨more, ceiling, grows_yields W h ceiling⟩)

/-- A request for room that a memory can have is refused because of the ceiling, or for want of memory if the
buffer has to grow. -/
theorem ensureWritable_refused (W : p.Wf) (h : (p.core b.core).lease = some l) {additional : Nat}
    (size : additional < Memory.limit) {p' : Pool} {refusal : Refusal}
    (refused : b.ensureWritable p additional = .ok (p', .error refusal)) :
    (p.core b.core).maxCapacity < (p.core b.core).writer + additional ∧
      refusal = .capacityExceeded ((p.core b.core).writer + additional) (p.core b.core).maxCapacity ∨
    (p.core b.core).writer + additional ≤ (p.core b.core).maxCapacity ∧ refusal.isShortage = true ∧
      l.length - (p.core b.core).writer < additional := by
  have inside := (W.cores _ l h).inside
  have limit := W.length_lt h
  have sum : Word.addClamped (p.core b.core).writer additional = (p.core b.core).writer + additional :=
    Word.addClamped_of_lt_limit (by omega) size
  rcases ensureWritable_cases W h additional with ⟨-, e⟩ | ⟨-, beyond, e⟩ | ⟨more, ceiling, r, e, outcome⟩
  · cases e.symm.trans refused
  · cases e.symm.trans refused
    rw [sum] at beyond ⊢
    exact .inl ⟨beyond, rfl⟩
  · cases e.symm.trans refused
    rcases outcome with ⟨refusal', same, short, -⟩ | ⟨done, -⟩
    · cases same
      rw [sum] at ceiling
      exact .inr ⟨ceiling, short, more⟩
    · cases done

/-- Room for more bytes is made or refused. -/
theorem ensureWritable_yields (W : p.Wf) (h : (p.core b.core).lease = some l) (additional : Nat) :
    (b.ensureWritable p additional).Yields fun r =>
      (∃ refusal, r.2 = .error refusal ∧ p.Declines r.1) ∨
      r.2 = .ok () ∧ ∃ n, p.Resizes b.core n r.1 ∧ (p.core b.core).writer + additional ≤ n := by
  rcases ensureWritable_cases W h additional with ⟨enough, e⟩ | ⟨-, -, e⟩ | ⟨-, -, grows⟩
  · have inside := (W.cores _ l h).inside
    exact ⟨_, e, .inr ⟨rfl, l.length, Pool.Resizes.same W h, by omega⟩⟩
  · exact ⟨_, e, .inl ⟨_, rfl, .refl W⟩⟩
  · apply grows.mono
    intro r outcome
    rcases outcome with ⟨refusal, refused, -, same⟩ | ⟨answer, grown⟩
    · exact .inl ⟨refusal, refused, same⟩
    · exact .inr ⟨answer, _, grown.resizes, Size.le_grown grown.ceiling⟩

/-- Bytes are appended, or refused because there is no room; the second part, the writing itself, is never
refused. -/
theorem write_yields (W : p.Wf) (h : (p.core b.core).lease = some l) (bytes : ByteArray) :
    (b.write p bytes).Yields fun r =>
      (∃ refusal, r.2 = .error refusal ∧ p.Declines r.1 ∧
        b.ensureWritable p bytes.size = .ok (r.1, .error refusal)) ∨
      r.2 = .ok () ∧ (r.1.core b.core).reader = (p.core b.core).reader ∧
        (r.1.core b.core).writer = (p.core b.core).writer + bytes.size ∧
        p.Puts b.core (p.core b.core).writer bytes r.1 := by
  have fits := W.cores _ l h
  obtain ⟨⟨p1, answer⟩, e, outcome⟩ := ensureWritable_yields W h bytes.size
  refine .bind_ok e ?_
  rcases outcome with ⟨refusal, rfl, same⟩ | ⟨rfl, n, resizes, room⟩
  · exact Checked.yields_pure.2 (.inl ⟨refusal, rfl, same, e⟩)
  · obtain ⟨k, length, core⟩ := resizes.core
    have lease : (p1.core b.core).lease = some k := by rw [core]
    have ordered := fits.ordered
    have reader : (p1.core b.core).reader = (p.core b.core).reader := by
      rw [core]
      exact Nat.min_eq_left (by omega)
    have writer : (p1.core b.core).writer = (p.core b.core).writer := by
      rw [core]
      exact Nat.min_eq_left (by omega)
    have W1 := resizes.frame.wf
    simp only
    apply (Pool.setBytes_yields W1 lease _ bytes).bind
    intro ⟨p2, answer⟩ outcome
    rcases outcome with ⟨beyond, -⟩ | ⟨inside, rfl, same, rests, puts⟩
    · rw [writer] at beyond
      omega
    · rw [writer] at inside puts ⊢
      have fits1 := W1.cores _ k lease
      have limit := W1.length_lt lease
      have sum : (p.core b.core).writer + bytes.size < Word.bound := Memory.lt_bound (by omega)
      simp only [Word.add_ok sum, Checked.ok_bind]
      have lease2 : (p2.core b.core).lease = some k := same.symm ▸ lease
      obtain ⟨uses, rests', moved, kept⟩ := Pool.uses_moveCursors puts.uses.frame.wf lease2
        (f := fun c => { c with writer := (p.core b.core).writer + bytes.size }) lease2
        ⟨by simp only [same, reader]; omega, inside, fits1.region,
          by simp only [same]; exact fits1.ceiling⟩ rfl rfl
      have capacity := Core.capacity_eq ((congrArg Core.lease moved).trans lease2)
      refine Checked.yields_pure.2 (.inr ⟨rfl, ?_, congrArg Core.writer moved,
        (resizes.uses.trans puts.uses rests).trans uses rests', ?_, fun j low high => ?_,
        fun j old new out => ?_⟩)
      · rw [moved, same]
        exact reader
      · rw [capacity]
        exact inside
      · rw [kept, puts.put j low high]
      · rw [capacity] at new
        rw [kept, puts.kept j (by rw [Core.capacity_eq lease]; exact new)
          (by rw [Core.capacity_eq lease2]; exact new) out, resizes.bytes j old (length ▸ new)]

/-- Bytes are taken or refused. -/
theorem read_yields (W : p.Wf) (h : (p.core b.core).lease = some l) (length : Nat) :
    (b.read p length).Yields fun r =>
      (∃ refusal, r = (p, .error refusal)) ∨
      p.Reads b.core (p.core b.core).reader length r.2 ∧ p.Uses b.core r.1 ∧
        r.1.core b.core = { p.core b.core with reader := (p.core b.core).reader + length } ∧
        ∀ k, r.1.byte? b.core k = p.byte? b.core k := by
  have fits := W.cores _ l h
  unfold read
  simp only [Core.readable, Word.sub_ok fits.ordered, Checked.ok_bind]
  split
  · exact Checked.yields_pure.2 (.inl ⟨_, rfl⟩)
  · rename_i enough
    have ordered := fits.ordered
    have inside := fits.inside
    have limit := W.length_lt h
    apply (Pool.getBytes_yields W h _ _).bind
    intro answer outcome
    rcases outcome with ⟨beyond, -⟩ | ⟨-, data, rfl, size, read⟩
    · omega
    · have sum : (p.core b.core).reader + length < Word.bound := Memory.lt_bound (by omega)
      simp only [Word.add_ok sum, Checked.ok_bind]
      obtain ⟨uses, -, moved, kept⟩ := Pool.uses_moveCursors W h
        (f := fun c => { c with reader := (p.core b.core).reader + length }) h
        ⟨by simp only; omega, inside, fits.region, fits.ceiling⟩ rfl rfl
      exact Checked.yields_pure.2 (.inr ⟨⟨data, rfl, size, read⟩, uses, moved, kept⟩)

/-- The readable bytes are never refused. -/
theorem copyReadable_yields (W : p.Wf) (h : (p.core b.core).lease = some l) :
    (b.copyReadable p).Yields fun r => p.Reads b.core (p.core b.core).reader
      ((p.core b.core).writer - (p.core b.core).reader) r := by
  have fits := W.cores _ l h
  have ordered := fits.ordered
  have inside := fits.inside
  have limit := W.length_lt h
  unfold copyReadable
  simp only [Core.readable, Word.sub_ok fits.ordered, Checked.ok_bind]
  refine .guard (decide_eq_true (by omega)) ((Pool.getBytes_yields W h _ _).mono ?_)
  intro answer outcome
  rcases outcome with ⟨beyond, -⟩ | ⟨-, reads⟩
  · omega
  · exact reads

end Buffer

end BufferPool
