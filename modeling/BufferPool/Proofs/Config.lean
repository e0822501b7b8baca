import BufferPool.Proofs.Size

/-!
# What an accepted configuration is worth

The rules compare the chunk size that is left after the shift with the largest one, so they say nothing
about bits that the shift drops. A page is a power of two: the shift keeps its only bit, and all figures
are as large as they should be, or it drops that bit, and the chunk is empty.
-/

namespace BufferPool.PoolConfig

variable {c : PoolConfig}

/-- The figures of a configuration agree, and the chunk that they describe is not too large. -/
structure Sound (c : PoolConfig) : Prop where
  /-- The chunk is not too large, counted with all its bits. -/
  product_le : c.pageSize * 2 ^ c.maxOrder ≤ chunkLimit
  /-- The chunk size has lost no bits. -/
  chunkSize_eq : c.chunkSize = c.pageSize * 2 ^ c.maxOrder
  /-- A chunk is a whole number of pages. -/
  chunkSize_eq_pages : c.chunkSize = c.pageSize * c.pagesPerChunk
  /-- A chunk has a page. -/
  pagesPerChunk_pos : 0 < c.pagesPerChunk

/-- An order that is in range loses no pages. -/
theorem pagesPerChunk_eq (order : c.maxOrder ≤ orderLimit) : c.pagesPerChunk = 2 ^ c.maxOrder := by
  have least : 2 ^ c.maxOrder ≤ 2 ^ orderLimit := Nat.pow_le_pow_right (by omega) order
  have inside : 2 ^ orderLimit < Word.bound := by decide
  rw [pagesPerChunk, Word.shiftLeft, Nat.one_shiftLeft, Nat.mod_eq_of_lt (by omega)]

/-- What is left of a chunk whose bits fit. -/
theorem chunkSize_of_lossless (lossless : c.pageSize * 2 ^ c.maxOrder < Word.bound) :
    c.chunkSize = c.pageSize * 2 ^ c.maxOrder := by
  rw [chunkSize, Word.shiftLeft, Nat.shiftLeft_eq, Nat.mod_eq_of_lt lossless]

/-- What is left of a chunk of a page with one bit when that bit is lost. -/
theorem chunkSize_eq_zero_iff (page : Word.isPowerOfTwo c.pageSize = true) :
    c.chunkSize = 0 ↔ Word.bound ≤ c.pageSize * 2 ^ c.maxOrder := by
  obtain ⟨bits, hbits⟩ : ∃ bits, c.pageSize = 2 ^ bits := ⟨_, Word.isPowerOfTwo_eq page⟩
  have bound : Word.bound = 2 ^ 64 := by decide
  rw [chunkSize, Word.shiftLeft, Nat.shiftLeft_eq, hbits, ← Nat.pow_add, bound]
  constructor
  · intro empty
    exact Nat.le_of_dvd (Nat.two_pow_pos _) (Nat.dvd_of_mod_eq_zero empty)
  · intro lost
    have := (Nat.pow_le_pow_iff_right (by omega : 1 < 2)).1 lost
    exact Nat.mod_eq_zero_of_dvd (Nat.pow_dvd_pow 2 this)

/-- A configuration is accepted when its page size, its order and its ceiling are in range and it is
sound, or nothing of its chunk is left. -/
theorem validate_ok_iff : c.validate = .ok () ↔
    Word.isPowerOfTwo c.pageSize = true ∧ minPageSize ≤ c.pageSize ∧ c.maxOrder ≤ orderLimit ∧
      0 < c.defaultMaxCapacity ∧ (c.Sound ∨ c.chunkSize = 0) := by
  constructor
  · intro accepted
    obtain ⟨page, least, order, chunk⟩ := validate_ok accepted
    have ceiling : 0 < c.defaultMaxCapacity := by
      refine Nat.pos_of_ne_zero fun none => ?_
      simp [validate, page, Nat.not_lt.2 least, Nat.not_lt.2 order, Nat.not_lt.2 chunk, none] at accepted
    refine ⟨page, least, order, ceiling, ?_⟩
    by_cases lossless : c.pageSize * 2 ^ c.maxOrder < Word.bound
    · have size := chunkSize_of_lossless lossless
      have pages := pagesPerChunk_eq order
      exact .inl {
        product_le := size ▸ chunk
        chunkSize_eq := size
        chunkSize_eq_pages := by rw [size, pages]
        pagesPerChunk_pos := pages ▸ Nat.two_pow_pos _ }
    · exact .inr ((chunkSize_eq_zero_iff page).2 (Nat.le_of_not_lt lossless))
  · rintro ⟨page, least, order, ceiling, figures⟩
    have chunk : c.chunkSize ≤ chunkLimit := by
      rcases figures with sound | empty
      · exact sound.chunkSize_eq ▸ sound.product_le
      · omega
    simp [validate, page, Nat.not_lt.2 least, Nat.not_lt.2 order, Nat.not_lt.2 chunk,
      Nat.pos_iff_ne_zero.1 ceiling]

/-- An accepted configuration is sound as long as its chunk size fits a machine word. When it does not,
the chunk has no bytes at all, although it is said to have pages. -/
theorem accepted_sound_or_empty (accepted : c.validate = .ok ()) :
    if c.pageSize * 2 ^ c.maxOrder < Word.bound then c.Sound
    else c.chunkSize = 0 ∧ 0 < c.pageSize * c.pagesPerChunk := by
  obtain ⟨page, least, order, -, figures⟩ := validate_ok_iff.1 accepted
  have nonempty : 0 < c.pageSize * c.pagesPerChunk := by
    rw [pagesPerChunk_eq order]
    exact Nat.mul_pos (Nat.lt_of_lt_of_le (by decide) least) (Nat.two_pow_pos _)
  have empty := chunkSize_eq_zero_iff page
  split
  · rename_i lossless
    rcases figures with sound | none
    · exact sound
    · exact absurd (empty.1 none) (Nat.not_le.2 lossless)
  · rename_i lost
    exact ⟨empty.2 (Nat.le_of_not_lt lost), nonempty⟩

theorem accepted_sound_or_empty_default : validate {} = .ok () ∧ Sound {} :=
  ⟨rfl, by
    have sound := accepted_sound_or_empty (c := {}) rfl
    rwa [if_pos (by decide)] at sound⟩

/-- Acceptance alone does not make a configuration sound: 4 pages of 2 to the 62nd bytes are a chunk that
is accepted and has no bytes. -/
theorem not_forall_accepted_sound :
    ¬ ∀ c : PoolConfig, c.pageSize < Word.bound → c.maxOrder < 2 ^ 32 → c.validate = .ok () → c.Sound :=
  fun all =>
    have sound : Sound { pageSize := 2 ^ 62, maxOrder := 2 } := all _ (by decide) (by decide) rfl
    absurd sound.product_le (by decide)

end BufferPool.PoolConfig
