import BufferPool.Proofs.Buffer
import BufferPool.View

/-!
# Views

The operations of a view on a core in use. A view that was made from a buffer keeps its cursors in order
and its window below the limit of memories (`View.Fits`), whatever happens to the buffer meanwhile; so no
position overflows, and a range that the buffer has lost is refused.
-/

namespace BufferPool

/-- The cursors of a view are in order, and the window ends below the limit of memories. -/
structure View.Fits (v : View) : Prop where
  ordered : v.reader ≤ v.writer
  bounded : v.writer < Memory.limit
  slice : ∀ n, v.length = some n → v.start + n < Memory.limit ∧ v.writer ≤ n
  duplicate : v.length = none → v.start = 0

namespace View

variable {v : View} {p : Pool} {l : Lease} {index length : Nat}

/-- A window whose bytes are all readable. -/
theorem fits_ofRange {start length : Nat} {core : CoreId} (limit : start + length < Memory.limit) :
    (ofRange core start length).Fits := by
  refine ⟨Nat.zero_le _, ?_, ?_, nofun⟩
  · change length < _
    omega
  · intro n outcome
    cases outcome
    exact ⟨limit, Nat.le_refl _⟩

/-- The window ends below the limit of memories. -/
theorem Fits.window (F : v.Fits) (W : p.Wf) (h : (p.core v.core).lease = some l) :
    v.start + v.capacity p < Memory.limit := by
  unfold capacity
  cases window : v.length with
  | some n => exact (F.slice n window).1
  | none =>
    have limit := W.length_lt h
    rw [F.duplicate window, Core.capacity_eq h]
    simp only
    omega

/-- The start of a range inside the window is a machine word. -/
theorem Fits.position_ok (F : v.Fits) (W : p.Wf) (h : (p.core v.core).lease = some l)
    (inside : index + length ≤ v.capacity p) : Word.add v.start index = .ok (v.start + index) := by
  have window := F.window W h
  apply Word.add_ok
  exact Memory.lt_bound (by omega)

/-- A position inside the window is a machine word. -/
theorem Fits.cursor_ok (F : v.Fits) (W : p.Wf) (h : (p.core v.core).lease = some l)
    (inside : index + length ≤ v.capacity p) : Word.add index length = .ok (index + length) := by
  have window := F.window W h
  apply Word.add_ok
  exact Memory.lt_bound (by omega)

/-- A range that does not end inside the window is refused, wherever it would fall in the buffer. -/
theorem getBytes_of_lt (beyond : v.capacity p < index + length) :
    v.getBytes p index length = .ok (.error (.outOfBounds index length (v.capacity p))) := by
  rw [getBytes, checkRange, if_neg (Nat.not_le.2 beyond)]
  rfl

/-- A range inside the window is one of the buffer, further on by where the window starts. -/
theorem getBytes_of_le (F : v.Fits) (W : p.Wf) (h : (p.core v.core).lease = some l)
    (inside : index + length ≤ v.capacity p) :
    v.getBytes p index length = p.getBytes v.core (v.start + index) length := by
  rw [getBytes, checkRange, if_pos inside]
  simp only [F.position_ok W h inside, Checked.ok_bind]

theorem setBytes_of_lt {bytes : ByteArray} (beyond : v.capacity p < index + bytes.size) :
    v.setBytes p index bytes = .ok (p, .error (.outOfBounds index bytes.size (v.capacity p))) := by
  rw [setBytes, checkRange, if_neg (Nat.not_le.2 beyond)]
  rfl

theorem setBytes_of_le (F : v.Fits) (W : p.Wf) (h : (p.core v.core).lease = some l) {bytes : ByteArray}
    (inside : index + bytes.size ≤ v.capacity p) :
    v.setBytes p index bytes = p.setBytes v.core (v.start + index) bytes := by
  rw [setBytes, checkRange, if_pos inside]
  simp only [F.position_ok W h inside, Checked.ok_bind]

/-- A range is read where it is inside the window and inside the buffer. -/
theorem getBytes_yields (F : v.Fits) (W : p.Wf) (h : (p.core v.core).lease = some l)
    (index length : Nat) : (v.getBytes p index length).Yields fun r =>
      ((v.capacity p < index + length ∨ l.length < v.start + index + length) ∧
        ∃ refusal, r = .error refusal) ∨
      index + length ≤ v.capacity p ∧ v.start + index + length ≤ l.length ∧
        p.Reads v.core (v.start + index) length r := by
  rcases Nat.lt_or_ge (v.capacity p) (index + length) with beyond | inside
  · rw [getBytes_of_lt beyond]
    exact Checked.yields_ok.2 (.inl ⟨.inl beyond, _, rfl⟩)
  · rw [getBytes_of_le F W h inside]
    apply (Pool.getBytes_yields W h _ _).mono
    intro r outcome
    rcases outcome with ⟨beyond, refused⟩ | ⟨within, reads⟩
    · exact .inl ⟨.inr beyond, refused⟩
    · exact .inr ⟨inside, within, reads⟩

/-- A range is written where it is inside the window and inside the buffer. -/
theorem setBytes_yields (F : v.Fits) (W : p.Wf) (h : (p.core v.core).lease = some l) (index : Nat)
    (bytes : ByteArray) : (v.setBytes p index bytes).Yields fun r =>
      (∃ refusal, r = (p, .error refusal)) ∨
      r.2 = .ok () ∧ index + bytes.size ≤ v.capacity p ∧ r.1.core v.core = p.core v.core ∧
        p.Puts v.core (v.start + index) bytes r.1 := by
  rcases Nat.lt_or_ge (v.capacity p) (index + bytes.size) with beyond | inside
  · rw [setBytes_of_lt beyond]
    exact Checked.yields_ok.2 (.inl ⟨_, rfl⟩)
  · rw [setBytes_of_le F W h inside]
    apply (Pool.setBytes_yields W h _ _).mono
    intro r outcome
    rcases outcome with ⟨-, refused⟩ | ⟨-, answer, same, -, puts⟩
    · exact .inl refused
    · exact .inr ⟨answer, inside, same, puts⟩

/-- Cursors inside the window are accepted. -/
theorem setIndex_cases (F : v.Fits) (W : p.Wf) (h : (p.core v.core).lease = some l)
    (reader writer : Nat) : (∃ refusal, v.setIndex p reader writer = .error refusal) ∨
      v.setIndex p reader writer = .ok { v with reader := reader, writer := writer } ∧
        ({ v with reader := reader, writer := writer } : View).Fits := by
  have window := F.window W h
  unfold setIndex
  rcases checkCursors_cases reader writer (v.capacity p) with
    ⟨ordered, inside, passed⟩ | ⟨refusal, refused⟩
  · rw [passed]
    refine .inr ⟨rfl, ordered, by simp only; omega, fun n slice => ⟨(F.slice n slice).1, ?_⟩,
      F.duplicate⟩
    have covers : v.capacity p = n := by
      rw [capacity, show v.length = some n from slice]
    exact covers ▸ inside
  · rw [refused]
    exact .inl ⟨refusal, rfl⟩

/-- Bytes are taken at the reader or refused. -/
theorem read_yields (F : v.Fits) (W : p.Wf) (h : (p.core v.core).lease = some l) (length : Nat) :
    (v.read p length).Yields fun r =>
      (∃ refusal, r = .error refusal) ∨
      ∃ data, r = .ok ({ v with reader := v.reader + length }, data) ∧
        ({ v with reader := v.reader + length } : View).Fits ∧
        p.Reads v.core (v.start + v.reader) length (.ok data) := by
  unfold read
  simp only [readable, Word.sub_ok F.ordered, Checked.ok_bind]
  split
  · exact Checked.yields_pure.2 (.inl ⟨_, rfl⟩)
  · rename_i enough
    have ordered := F.ordered
    apply (getBytes_yields F W h _ _).bind
    intro answer outcome
    rcases outcome with ⟨-, refusal, rfl⟩ | ⟨inside, -, data, rfl, size, read⟩
    · exact Checked.yields_pure.2 (.inl ⟨refusal, rfl⟩)
    · simp only [F.cursor_ok W h inside, Checked.ok_bind]
      exact Checked.yields_pure.2 (.inr ⟨data, rfl,
        ⟨by simp only; omega, F.bounded, F.slice, F.duplicate⟩, data, rfl, size, read⟩)

/-- Bytes are appended inside the window or refused. -/
theorem write_yields (F : v.Fits) (W : p.Wf) (h : (p.core v.core).lease = some l) (bytes : ByteArray) :
    (v.write p bytes).Yields fun r =>
      (∃ refusal, r = (p, .error refusal)) ∨
      r.2 = .ok { v with writer := v.writer + bytes.size } ∧
        ({ v with writer := v.writer + bytes.size } : View).Fits ∧ r.1.core v.core = p.core v.core ∧
        p.Puts v.core (v.start + v.writer) bytes r.1 := by
  have window := F.window W h
  unfold write
  apply (setBytes_yields F W h _ _).bind
  intro ⟨p1, answer⟩ outcome
  rcases outcome with ⟨refusal, e⟩ | ⟨rfl, inside, same, puts⟩
  · cases e
    exact Checked.yields_pure.2 (.inl ⟨refusal, rfl⟩)
  · simp only [F.cursor_ok W h inside, Checked.ok_bind]
    have ordered := F.ordered
    refine Checked.yields_pure.2 (.inr ⟨rfl, ⟨by simp only; omega, by simp only; omega,
      fun n slice => ⟨(F.slice n slice).1, ?_⟩, F.duplicate⟩, same, puts⟩)
    have covers : v.capacity p = n := by
      rw [capacity, show v.length = some n from slice]
    exact covers ▸ inside

/-- The readable bytes are read where the buffer still has them. -/
theorem copyReadable_yields (F : v.Fits) (W : p.Wf) (h : (p.core v.core).lease = some l) :
    (v.copyReadable p).Yields fun r =>
      (∃ refusal, r = .error refusal) ∨
      p.Reads v.core (v.start + v.reader) (v.writer - v.reader) r := by
  have bounded := F.bounded
  unfold copyReadable
  simp only [readable, Word.sub_ok F.ordered, Checked.ok_bind]
  refine .guard (decide_eq_true (by omega)) ((getBytes_yields F W h _ _).mono ?_)
  intro r outcome
  rcases outcome with ⟨-, refused⟩ | ⟨-, -, reads⟩
  · exact .inl refused
  · exact .inr reads

/-- A view is made a second time. -/
theorem duplicate_yields (W : p.Wf) (h : (p.core v.core).lease = some l)
    (used : 0 < (p.core v.core).refs) :
    (v.duplicate p).Yields fun r => p.Retains v.core r.1 ∧ r.2 = v :=
  (Pool.retain_yields W h used).bind fun _ retains => Checked.yields_pure.2 ⟨retains, rfl⟩

/-- A narrower view is made or refused. -/
theorem slice_yields (F : v.Fits) (W : p.Wf) (h : (p.core v.core).lease = some l)
    (used : 0 < (p.core v.core).refs) (index length : Nat) :
    (v.slice p index length).Yields fun r =>
      (∃ refusal, r = (p, .error refusal)) ∨
      ∃ w, r.2 = .ok w ∧ w.core = v.core ∧ w.Fits ∧ p.Retains v.core r.1 := by
  have window := F.window W h
  unfold slice
  rcases checkRange_cases index length (v.capacity p) with ⟨inside, passed⟩ | ⟨-, refusal, refused⟩
  · simp only [passed]
    apply (Pool.retain_yields W h used).bind
    intro p1 retains
    simp only [F.position_ok W h inside, Checked.ok_bind]
    exact Checked.yields_pure.2 (.inr ⟨_, rfl, rfl, fits_ofRange (by omega), retains⟩)
  · simp only [refused]
    exact Checked.yields_pure.2 (.inl ⟨refusal, rfl⟩)

end View

namespace Buffer

variable {b : Buffer} {p : Pool} {l : Lease}

/-- A view of the whole buffer. -/
theorem duplicate_yields (W : p.Wf) (h : (p.core b.core).lease = some l)
    (used : 0 < (p.core b.core).refs) : (b.duplicate p).Yields fun r =>
      r.2.core = b.core ∧ r.2.Fits ∧ p.Retains b.core r.1 := by
  have fits := W.cores _ l h
  have limit := W.length_lt h
  have inside := fits.inside
  refine (Pool.retain_yields W h used).bind fun p1 retains => Checked.yields_pure.2
    ⟨rfl, ⟨fits.ordered, ?_, nofun, fun _ => rfl⟩, retains⟩
  change (p.core b.core).writer < _
  omega

/-- A view of a range is made or refused. -/
theorem slice_yields (W : p.Wf) (h : (p.core b.core).lease = some l)
    (used : 0 < (p.core b.core).refs) (index length : Nat) :
    (b.slice p index length).Yields fun r =>
      (∃ refusal, r = (p, .error refusal)) ∨
      ∃ w, r.2 = .ok w ∧ w.core = b.core ∧ w.Fits ∧ p.Retains b.core r.1 := by
  have limit := W.length_lt h
  unfold slice
  rw [capacity_eq h]
  rcases checkRange_cases index length l.length with ⟨inside, passed⟩ | ⟨-, refusal, refused⟩
  · simp only [passed]
    refine (Pool.retain_yields W h used).bind fun p1 retains => Checked.yields_pure.2
      (.inr ⟨_, rfl, rfl, View.fits_ofRange (by omega), retains⟩)
  · simp only [refused]
    exact Checked.yields_pure.2 (.inl ⟨refusal, rfl⟩)

/-- A view of the bytes between the cursors. -/
theorem sliceReadable_yields (W : p.Wf) (h : (p.core b.core).lease = some l)
    (used : 0 < (p.core b.core).refs) : (b.sliceReadable p).Yields fun r =>
      r.2.core = b.core ∧ r.2.Fits ∧ p.Retains b.core r.1 := by
  have fits := W.cores _ l h
  have limit := W.length_lt h
  have ordered := fits.ordered
  have inside := fits.inside
  unfold sliceReadable
  simp only [Core.readable, Word.sub_ok ordered, Checked.ok_bind]
  exact (Pool.retain_yields W h used).bind fun p1 retains => Checked.yields_pure.2
    ⟨rfl, View.fits_ofRange (by omega), retains⟩

end Buffer

end BufferPool
