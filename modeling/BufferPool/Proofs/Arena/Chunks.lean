import BufferPool.Arena.Lease
import BufferPool.Proofs.Arena.Change
import BufferPool.Proofs.Table.Idle

/-!
# The chunks that are held

A chunk is added only for want of room, and a chunk without a run has room for any request; a chunk that
loses its last run is given up unless it is the only one. So of several chunks each has a run
(`Arena.Tidy`), and idle subpages stay the last ones of their lists, in whatever order leases are granted
and come back (`Arena.Tends`).
-/

namespace BufferPool

namespace Arena

variable {a a' a'' : Arena} {i : Nat} {m : PageMap} {c d : PooledChunk} {length : Nat}

/-- Of several chunks each has a run, and there are as many as the configuration allows. -/
structure Tidy (a : Arena) : Prop where
  occupied : 1 < a.chunks.size → ∀ c ∈ a.chunks, ∃ page, 0 < c.pages.run page
  limited : a.config.maxChunks ≠ 0 → a.chunks.size ≤ a.config.maxChunks

/-- The chunks stay tidy, and do not all go; idle subpages stay last. -/
structure Tends (a a' : Arena) : Prop where
  tidy : a.Tidy → a'.Tidy
  held : 0 < a.chunks.size → 0 < a'.chunks.size
  idleLast : a.table.IdleLast → a'.table.IdleLast

theorem Tends.trans (h : a.Tends a') (h' : a'.Tends a'') : a.Tends a'' where
  tidy T := h'.tidy (h.tidy T)
  held some := h'.held (h.held some)
  idleLast I := h'.idleLast (h.idleLast I)

theorem tends_of_chunks (chunks : a'.chunks = a.chunks) (config : a'.config = a.config)
    (idleLast : a.table.IdleLast → a'.table.IdleLast) : a.Tends a' where
  tidy T := ⟨by rw [chunks]; exact T.occupied, by rw [chunks, config]; exact T.limited⟩
  held := by rw [chunks]; exact id
  idleLast := idleLast

theorem pages_of_withPages (hd : d ∈ (a.withPages i m).chunks) : d.pages = m ∨ d ∈ a.chunks := by
  obtain ⟨j, hj⟩ := Array.mem_iff_getElem?.1 hd
  rw [getElem?_withPages] at hj
  split at hj
  · obtain ⟨e, -, rfl⟩ := Option.map_eq_some_iff.1 hj
    exact .inl rfl
  · exact .inr (mem_of_getElem? hj)

theorem size_withPages : (a.withPages i m).chunks.size = a.chunks.size := Array.size_modify

/-- The pages of a chunk change, but if it is one of several, not to none in use. -/
theorem tends_withPages (hi : a.chunks[i]? = some c)
    (some : 1 < a.chunks.size → (∃ page, 0 < c.pages.run page) → ∃ page, 0 < m.run page) :
    a.Tends (a.withPages i m) where
  tidy T := by
    refine ⟨fun several d hd => ?_, by rw [size_withPages]; exact T.limited⟩
    rw [size_withPages] at several
    rcases pages_of_withPages hd with same | old
    · rw [same]
      exact some several (T.occupied several c (mem_of_getElem? hi))
    · exact T.occupied several d old
  held := by rw [size_withPages]; exact id
  idleLast := id

/-- A chunk with a run is added where no chunk has room for a run that is not longer than a chunk. -/
theorem tends_grown (W : a.Wf) (notFull : a.isFull = false) (positive : 0 < length)
    (fits : length ≤ a.config.chunkPages) (crowded : ∀ d ∈ a.chunks, d.pages.takeRun? length = none)
    (some : ∃ page, 0 < c.pages.run page) (chunks : a'.chunks = a.chunks.push c)
    (config : a'.config = a.config) (table : a'.table = a.table) : a.Tends a' where
  tidy T := by
    refine ⟨fun _ d hd => ?_, fun bound => ?_⟩
    · rw [chunks, Array.mem_push] at hd
      rcases hd with old | rfl
      · by_contra none
        push Not at none
        obtain ⟨m, room⟩ := PageMap.takeRun?_of_blank (W.chunks d old).pages
          (fun p => Nat.le_zero.1 (none p)) positive (by rw [(W.chunks d old).count]; exact fits)
        rw [crowded d old] at room
        cases room
      · exact some
    · rw [config] at bound ⊢
      rw [chunks, Array.size_push]
      have below : ¬ a.config.maxChunks ≤ a.chunks.size := fun full => by
        rw [isFull, bne_iff_ne.2 bound, Bool.true_and, decide_eq_false_iff_not] at notFull
        exact notFull full
      omega
  held _ := by
    rw [chunks, Array.size_push]
    omega
  idleLast := by rw [table]; exact id

/-- One of several chunks is given up, of which the others keep their pages. -/
theorem tends_dropped (several : 1 < a.chunks.size) (size : a'.chunks.size = a.chunks.size - 1)
    (others : ∀ d ∈ a'.chunks, d ∈ a.chunks) (config : a'.config = a.config)
    (idleLast : a.table.IdleLast → a'.table.IdleLast) : a.Tends a' where
  tidy T := by
    refine ⟨fun _ d hd => T.occupied several d (others d hd), fun bound => ?_⟩
    rw [config] at bound ⊢
    have := T.limited bound
    omega
  held _ := by omega
  idleLast := idleLast

end Arena

end BufferPool
