import Mathlib.Algebra.Group.Nat.Defs
import BufferPool.Config.Pool
import BufferPool.Size.Class
import BufferPool.Size.Growth

/-!
# Sizes of pages, chunks and slots

Under an accepted configuration whose chunk size loses no bits, pages and chunks are powers of two, and
a request is rounded to a slot size (`Size.IsSlot`), to whole pages, or not at all. Slot sizes fit a page
at least twice, and the class of a slot size tells it from every other one.
-/

namespace BufferPool

namespace Word

theorem isPowerOfTwo_eq {n : Nat} (h : isPowerOfTwo n = true) : n = 2 ^ n.log2 := by
  simp only [isPowerOfTwo, Bool.and_eq_true, beq_iff_eq, Nat.one_shiftLeft] at h
  exact h.2.symm

theorem trailingZeros_two_pow {k : Nat} (h : k < 64) : trailingZeros (2 ^ k) = k := by
  have found : (List.range 64).find? (fun j => (2 ^ k).testBit j) = some k := by
    refine List.find?_range_eq_some.2 ⟨?_, List.mem_range.2 h, fun j hj => ?_⟩
    · simp
    · simp only [Nat.testBit_two_pow, Bool.not_eq_true', decide_eq_false_iff_not]
      omega
  simp [trailingZeros, found]

/-- The power of two chosen for a number above 1 has an exponent of its own. -/
theorem powerOfTwoAbove_eq (n : Nat) : ∃ k, powerOfTwoAbove n = 2 ^ k := by
  unfold powerOfTwoAbove
  split
  · exact ⟨0, rfl⟩
  · exact ⟨_, Nat.one_shiftLeft _⟩

/-- The power of two chosen is large enough. -/
theorem le_powerOfTwoAbove (n : Nat) : n ≤ powerOfTwoAbove n := by
  unfold powerOfTwoAbove
  split
  · omega
  · have := Nat.lt_log2_self (n := n - 1)
    rw [Nat.one_shiftLeft]
    omega

/-- No smaller power of two is large enough. -/
theorem powerOfTwoAbove_le {n k : Nat} (h : n ≤ 2 ^ k) : powerOfTwoAbove n ≤ 2 ^ k := by
  unfold powerOfTwoAbove
  split
  · exact Nat.one_le_two_pow
  · have hlog : (n - 1).log2 < k := (Nat.log2_lt (by omega)).2 (by omega)
    rw [Nat.one_shiftLeft]
    exact Nat.pow_le_pow_right (by omega) (by omega)

end Word

namespace PoolConfig

variable {c : PoolConfig}

/-- A configuration that is accepted and whose chunk size loses no bits. -/
structure Exact (c : PoolConfig) : Prop where
  accepted : c.validate = .ok ()
  lossless : c.pageSize * 2 ^ c.maxOrder < Word.bound

/-- The exponent of the page size. -/
def pageBits (c : PoolConfig) : Nat := c.pageSize.log2

/-- What an accepted configuration was checked for. -/
theorem validate_ok (h : c.validate = .ok ()) :
    Word.isPowerOfTwo c.pageSize = true ∧ minPageSize ≤ c.pageSize ∧ c.maxOrder ≤ orderLimit ∧
      c.chunkSize ≤ chunkLimit := by
  unfold validate at h
  split at h
  · cases h
  · split at h
    · cases h
    · split at h
      · cases h
      · rename_i page order chunk
        simp only [not_or, Bool.not_eq_true', Bool.not_eq_false, Nat.not_lt] at page order chunk
        exact ⟨page.1, page.2, order, chunk⟩

theorem Exact.pageSize_eq (h : c.Exact) : c.pageSize = 2 ^ c.pageBits :=
  Word.isPowerOfTwo_eq (validate_ok h.accepted).1

theorem Exact.chunkSize_eq (h : c.Exact) : c.chunkSize = 2 ^ (c.pageBits + c.maxOrder) := by
  rw [chunkSize, Word.shiftLeft, Nat.shiftLeft_eq, Nat.mod_eq_of_lt h.lossless, Nat.pow_add, ← h.pageSize_eq]

theorem Exact.twelve_le_pageBits (h : c.Exact) : 12 ≤ c.pageBits := by
  have least : minPageSize ≤ c.pageSize := (validate_ok h.accepted).2.1
  rw [h.pageSize_eq] at least
  exact (Nat.pow_le_pow_iff_right (by omega : 1 < 2)).1 least

theorem Exact.bits_le (h : c.Exact) : c.pageBits + c.maxOrder ≤ 30 := by
  have most : c.chunkSize ≤ chunkLimit := (validate_ok h.accepted).2.2.2
  rw [h.chunkSize_eq] at most
  exact (Nat.pow_le_pow_iff_right (by omega : 1 < 2)).1 most

theorem Exact.le_pageSize (h : c.Exact) : 4096 ≤ c.pageSize :=
  (validate_ok h.accepted).2.1

theorem Exact.chunkSize_le (h : c.Exact) : c.chunkSize ≤ 2 ^ 30 :=
  (validate_ok h.accepted).2.2.2

theorem Exact.pageSize_dvd (h : c.Exact) : c.pageSize ∣ c.chunkSize := by
  rw [h.pageSize_eq, h.chunkSize_eq]
  exact Nat.pow_dvd_pow 2 (Nat.le_add_right ..)

theorem Exact.pageSize_le (h : c.Exact) : c.pageSize ≤ c.chunkSize := by
  refine Nat.le_of_dvd ?_ h.pageSize_dvd
  rw [h.chunkSize_eq]
  exact Nat.two_pow_pos _

/-- The number of pages in a chunk. -/
def chunkPages (c : PoolConfig) : Nat := c.chunkSize / c.pageSize

theorem Exact.chunkPages_mul (h : c.Exact) : c.chunkPages * c.pageSize = c.chunkSize :=
  Nat.div_mul_cancel h.pageSize_dvd

theorem Exact.chunkPages_pos (h : c.Exact) : 0 < c.chunkPages := by
  have := h.le_pageSize
  exact Nat.div_pos h.pageSize_le (by omega)

/-- Page numbers fit the page field of a locator. -/
theorem Exact.chunkPages_lt (h : c.Exact) : c.chunkPages < 2 ^ 32 := by
  have : c.chunkPages ≤ c.chunkSize := Nat.div_le_self ..
  have := h.chunkSize_le
  omega

end PoolConfig

namespace Size

/-- The sizes that pages are carved into: steps of 16 below 512, then powers of two below a page. -/
def IsSlot (pageSize size : Nat) : Prop :=
  size < tinyLimit ∧ size % step = 0 ∨ ∃ k, 9 ≤ k ∧ size = 2 ^ k ∧ size < pageSize

theorem le_rounded (request chunkSize : Nat) : request ≤ rounded request chunkSize := by
  unfold rounded step
  split
  · exact Nat.le_refl _
  · split
    · exact Word.le_powerOfTwoAbove request
    · omega

/-- The power of two chosen for a request below a chunk is a chunk at most. -/
theorem rounded_le {request bits : Nat} (hbits : 9 ≤ bits) (h : request ≤ 2 ^ bits) :
    rounded request (2 ^ bits) ≤ 2 ^ bits := by
  unfold rounded
  split
  · exact h
  · split
    · exact Word.powerOfTwoAbove_le h
    · rename_i _ tiny
      have : 2 ^ 9 ≤ 2 ^ bits := Nat.pow_le_pow_right (by omega) hbits
      unfold tinyLimit step at *
      omega

/-- The sizes that requests below a chunk are rounded to: multiples of the step, and powers of two. -/
def IsRounded (size : Nat) : Prop := size < tinyLimit ∧ size % step = 0 ∨ ∃ k, 9 ≤ k ∧ size = 2 ^ k

theorem isRounded_rounded {request chunkSize : Nat} (h : request < chunkSize) :
    IsRounded (rounded request chunkSize) := by
  unfold rounded
  rw [if_neg (by omega)]
  split
  · rename_i large
    obtain ⟨k, hk⟩ := Word.powerOfTwoAbove_eq request
    refine .inr ⟨k, ?_, hk⟩
    have : 2 ^ 9 ≤ 2 ^ k := hk ▸ Nat.le_trans large (Word.le_powerOfTwoAbove request)
    exact (Nat.pow_le_pow_iff_right (by omega : 1 < 2)).1 this
  · by_cases full : (request + (step - 1)) / step * step < tinyLimit
    · exact .inl ⟨full, by simp⟩
    · refine .inr ⟨9, by omega, ?_⟩
      unfold tinyLimit step at *
      omega

/-- A request is rounded to the least of these sizes that is large enough. -/
theorem rounded_le_of_isRounded {request size : Nat} (h : IsRounded size) (fits : request ≤ size)
    (chunkSize : Nat) : rounded request chunkSize ≤ size := by
  unfold rounded
  split
  · exact fits
  · rcases h with ⟨tiny, aligned⟩ | ⟨k, hk, rfl⟩
    · rw [if_neg (by omega)]
      unfold step at *
      omega
    · split
      · exact Word.powerOfTwoAbove_le fits
      · have : 2 ^ 9 ≤ 2 ^ k := Nat.pow_le_pow_right (by omega) hk
        unfold tinyLimit step at *
        omega

/-- A request that is larger, but not larger than what the smaller one is rounded to, is rounded alike. -/
theorem rounded_eq_of_between {request other chunkSize : Nat} (h : IsRounded (rounded request chunkSize))
    (h' : IsRounded (rounded other chunkSize)) (more : request ≤ other)
    (fits : other ≤ rounded request chunkSize) : rounded other chunkSize = rounded request chunkSize :=
  Nat.le_antisymm (rounded_le_of_isRounded h fits chunkSize)
    (rounded_le_of_isRounded h' (Nat.le_trans more (le_rounded other chunkSize)) chunkSize)

/-- Above half of a power of two a request is rounded to no smaller one. -/
theorem rounded_eq_two_pow {request k chunkSize : Nat} (hk : 9 ≤ k) (below : request < 2 ^ (k + 1))
    (chunk : 2 ^ (k + 1) ≤ chunkSize) :
    rounded request chunkSize = 2 ^ (k + 1) ↔ 2 ^ k < request := by
  have least : 2 ^ 9 ≤ 2 ^ k := Nat.pow_le_pow_right (by omega) hk
  have twice : 2 ^ (k + 1) = 2 * 2 ^ k := by rw [Nat.pow_succ, Nat.mul_comm]
  constructor
  · intro same
    refine Nat.lt_of_not_le fun less => ?_
    have := rounded_le_of_isRounded (.inr ⟨k, hk, rfl⟩) less chunkSize
    omega
  · intro more
    rw [rounded, if_neg (by omega), if_pos (by unfold tinyLimit; omega)]
    obtain ⟨j, hj⟩ := Word.powerOfTwoAbove_eq request
    have above := Word.le_powerOfTwoAbove request
    refine Nat.le_antisymm (Word.powerOfTwoAbove_le (Nat.le_of_lt below)) ?_
    rw [hj] at above ⊢
    have := (Nat.pow_lt_pow_iff_right (by omega : 1 < 2)).1 (Nat.lt_of_lt_of_le more above)
    exact Nat.pow_le_pow_right (by omega) this

/-- A shrinking that keeps the region is one that a request would be rounded to as well, except that half of
the smallest region is given up. -/
theorem shrinksInPlace_iff {capacity size chunkSize : Nat} (h : IsRounded size) (less : capacity < size)
    (chunk : size ≤ chunkSize) : shrinksInPlace capacity size = true ↔
      rounded capacity chunkSize = size ∧ ¬ (size = step ∧ 1 ≤ capacity ∧ capacity ≤ 8) := by
  have tiny : capacity < tinyLimit → rounded capacity chunkSize = (capacity + 15) / 16 * 16 := fun below => by
    rw [rounded, if_neg (by omega), if_neg (by omega)]
    rfl
  unfold IsRounded at h
  unfold shrinksInPlace fineShrinkLimit fineShrinkStep
  unfold step tinyLimit at *
  rw [Bool.and_eq_true, Bool.or_eq_true, decide_eq_true_iff, decide_eq_true_iff, decide_eq_true_iff]
  rcases h with ⟨below, aligned⟩ | ⟨k, hk, rfl⟩
  · rw [tiny (by omega)]
    omega
  · obtain rfl | ⟨j, hj, rfl⟩ : k = 9 ∨ ∃ j, 9 ≤ j ∧ k = j + 1 := by
      rcases Nat.eq_or_lt_of_le hk with same | more
      · exact .inl same.symm
      · exact .inr ⟨k - 1, by omega, by omega⟩
    · rw [tiny less]
      omega
    · have least : 2 ^ 9 ≤ 2 ^ j := Nat.pow_le_pow_right (by omega) hj
      have twice : 2 ^ (j + 1) = 2 * 2 ^ j := by rw [Nat.pow_succ, Nat.mul_comm]
      rw [rounded_eq_two_pow hj less chunk]
      omega

/-- A size that is a slot size leaves room for a second slot on its page. -/
theorem IsSlot.two_mul_le {bits size : Nat} (h : IsSlot (2 ^ bits) size) (hbits : 12 ≤ bits) :
    2 * size ≤ 2 ^ bits := by
  have page : 2 ^ 12 ≤ 2 ^ bits := Nat.pow_le_pow_right (by omega) hbits
  rcases h with ⟨tiny, -⟩ | ⟨k, -, rfl, below⟩
  · unfold tinyLimit at tiny
    omega
  · have : k < bits := (Nat.pow_lt_pow_iff_right (by omega : 1 < 2)).1 below
    calc 2 * 2 ^ k = 2 ^ (k + 1) := by rw [Nat.pow_succ, Nat.mul_comm]
      _ ≤ 2 ^ bits := Nat.pow_le_pow_right (by omega) this

/-- Slots are empty or hold at least one step. -/
theorem IsSlot.step_le {pageSize size : Nat} (h : IsSlot pageSize size) (hs : size ≠ 0) :
    step ≤ size := by
  rcases h with ⟨-, aligned⟩ | ⟨k, hk, rfl, -⟩
  · unfold step at *
    omega
  · have : 2 ^ 9 ≤ 2 ^ k := Nat.pow_le_pow_right (by omega) hk
    unfold step
    omega

theorem IsSlot.lt {pageSize size : Nat} (h : IsSlot pageSize size) (hp : 4096 ≤ pageSize) :
    size < pageSize := by
  rcases h with ⟨tiny, -⟩ | ⟨k, -, -, below⟩
  · unfold tinyLimit at tiny
    omega
  · exact below

/-! ## The lists of slot sizes -/

/-- The position of a slot size among all of them: the tiny ones, then the small ones. -/
def slotIndex (size : Nat) : Nat :=
  if size < tinyLimit then size / step else tinyClasses + (size.log2 - 9)

theorem slotIndex_two_pow {k : Nat} (hk : 9 ≤ k) : slotIndex (2 ^ k) = tinyClasses + (k - 9) := by
  have : 2 ^ 9 ≤ 2 ^ k := Nat.pow_le_pow_right (by omega) hk
  unfold slotIndex tinyLimit
  rw [if_neg (by omega), Nat.log2_two_pow]

theorem slotIndex_tiny {size : Nat} (h : size < tinyLimit) :
    slotIndex size = size / step ∧ slotIndex size < tinyClasses := by
  refine ⟨if_pos h, ?_⟩
  rw [slotIndex, if_pos h]
  unfold tinyClasses tinyLimit step at *
  omega

/-- Different slot sizes have different positions. -/
theorem IsSlot.eq_of_slotIndex {pageSize a b : Nat} (ha : IsSlot pageSize a)
    (hb : IsSlot pageSize b) (h : slotIndex a = slotIndex b) : a = b := by
  rcases ha with ⟨tinyA, alignedA⟩ | ⟨j, hj, rfl, -⟩
  · obtain ⟨eqA, ltA⟩ := slotIndex_tiny tinyA
    rcases hb with ⟨tinyB, alignedB⟩ | ⟨k, hk, rfl, -⟩
    · rw [eqA, (slotIndex_tiny tinyB).1] at h
      unfold step at *
      omega
    · rw [slotIndex_two_pow hk] at h
      omega
  · rcases hb with ⟨tinyB, -⟩ | ⟨k, hk, rfl, -⟩
    · have := (slotIndex_tiny tinyB).2
      rw [slotIndex_two_pow hj] at h
      omega
    · rw [slotIndex_two_pow hj, slotIndex_two_pow hk] at h
      rw [show j = k by omega]

theorem smallClasses_two_pow {bits : Nat} (hbits : bits < 64) :
    smallClasses (2 ^ bits) = bits - 9 := by
  rw [smallClasses, Word.trailingZeros_two_pow hbits,
    show tinyLimit = 2 ^ 9 from rfl, Word.trailingZeros_two_pow (by omega)]

/-- The class of a tiny slot size. -/
theorem ofSize_tiny {size pageSize chunkSize : Nat} (hs : size < tinyLimit)
    (hp : size < pageSize) (hc : size ≤ chunkSize) :
    Class.ofSize size pageSize chunkSize = .tiny (size / step) := by
  rw [Class.ofSize, if_neg (by omega), if_neg (by omega), if_pos hs]

/-- The class of a small slot size. -/
theorem ofSize_small {k pageSize chunkSize : Nat} (hk : 9 ≤ k) (hlt : k < 64)
    (hp : 2 ^ k < pageSize) (hc : 2 ^ k ≤ chunkSize) :
    Class.ofSize (2 ^ k) pageSize chunkSize = .small (k - 9) ∧
      (Class.small (k - 9)).isNumbered (2 ^ k) = true := by
  have large : 2 ^ 9 ≤ 2 ^ k := Nat.pow_le_pow_right (by omega) hk
  have limit : tinyLimit = 2 ^ 9 := rfl
  constructor
  · rw [Class.ofSize, if_neg (by omega), if_neg (by omega), if_neg (by omega),
      Word.trailingZeros_two_pow hlt, limit, Word.trailingZeros_two_pow (by omega)]
  · rw [Class.isNumbered, decide_eq_true_iff, Word.trailingZeros_two_pow hlt, limit,
      Word.trailingZeros_two_pow (by omega)]
    exact hk

/-- Where a request is served from: a private chunk, whole pages, or a slot. -/
theorem ofSize_rounded {bits order : Nat} (hbits : 12 ≤ bits) (top : bits + order ≤ 30) (request : Nat) :
    ∃ kind, Class.ofSize (rounded request (2 ^ (bits + order))) (2 ^ bits) (2 ^ (bits + order)) = kind ∧
      kind.isNumbered (rounded request (2 ^ (bits + order))) = true ∧
      (kind = .huge ∧ 2 ^ (bits + order) < request ∧ rounded request (2 ^ (bits + order)) = request ∨
        kind = .normal ∧ 2 ^ bits ≤ rounded request (2 ^ (bits + order)) ∧
          rounded request (2 ^ (bits + order)) ≤ 2 ^ (bits + order) ∧
          2 ^ bits ∣ rounded request (2 ^ (bits + order)) ∨
        kind ≠ .huge ∧ kind ≠ .normal ∧ IsSlot (2 ^ bits) (rounded request (2 ^ (bits + order)))) := by
  have page : 2 ^ bits ≤ 2 ^ (bits + order) := Nat.pow_le_pow_right (by omega) (Nat.le_add_right ..)
  by_cases huge : 2 ^ (bits + order) < request
  · have eq : rounded request (2 ^ (bits + order)) = request := by rw [rounded, if_pos (by omega)]
    exact ⟨.huge, by rw [eq, Class.ofSize, if_pos huge], rfl, .inl ⟨rfl, huge, eq⟩⟩
  have le := rounded_le (by omega : 9 ≤ bits + order) (Nat.le_of_not_lt huge)
  by_cases run : 2 ^ bits ≤ rounded request (2 ^ (bits + order))
  · refine ⟨.normal, by rw [Class.ofSize, if_neg (by omega), if_pos run], rfl,
      .inr (.inl ⟨rfl, run, le, ?_⟩)⟩
    by_cases full : request = 2 ^ (bits + order)
    · rw [rounded, if_pos (by omega), full]
      exact Nat.pow_dvd_pow 2 (Nat.le_add_right ..)
    · have below : request < 2 ^ (bits + order) := by omega
      rcases isRounded_rounded below with ⟨tiny, -⟩ | ⟨k, -, hk⟩
      · have : 2 ^ 12 ≤ 2 ^ bits := Nat.pow_le_pow_right (by omega) hbits
        unfold tinyLimit at tiny
        omega
      · rw [hk] at run ⊢
        exact Nat.pow_dvd_pow 2 ((Nat.pow_le_pow_iff_right (by omega : 1 < 2)).1 run)
  · have below : request < 2 ^ (bits + order) := by
      have := le_rounded request (2 ^ (bits + order))
      omega
    rcases isRounded_rounded below with ⟨tiny, aligned⟩ | ⟨k, hk, eq⟩
    · exact ⟨_, ofSize_tiny tiny (by omega) le, rfl,
        .inr (.inr ⟨by simp, by simp, .inl ⟨tiny, aligned⟩⟩)⟩
    · rw [eq] at run le ⊢
      have klt : k < 64 := by
        have := (Nat.pow_le_pow_iff_right (by omega : 1 < 2)).1 le
        omega
      obtain ⟨small, numbered⟩ := ofSize_small hk klt (show 2 ^ k < 2 ^ bits by omega) le
      exact ⟨_, small, numbered,
        .inr (.inr ⟨by simp, by simp, .inr ⟨k, hk, rfl, by omega⟩⟩)⟩

/-- A buffer that grows becomes as large as it has to be. -/
theorem le_grown {least ceiling : Nat} (h : least ≤ ceiling) : least ≤ grown least ceiling := by
  unfold grown
  split
  · omega
  · split
    · have step : 0 < growthStep := by decide
      have := Nat.lt_div_mul_add (a := least) step
      simp only
      split
      · exact h
      · omega
    · exact Nat.le_min.2
        ⟨Nat.le_trans (Nat.le_max_left _ _) (Word.le_powerOfTwoAbove _), h⟩

end Size

namespace PoolConfig

variable {c : PoolConfig}

open Size

theorem Exact.rounded_le (h : c.Exact) {request : Nat} (below : request ≤ c.chunkSize) :
    rounded request c.chunkSize ≤ c.chunkSize := by
  have bits := h.twelve_le_pageBits
  rw [h.chunkSize_eq] at below ⊢
  exact Size.rounded_le (by omega) below

/-- A chunk is itself one of the sizes that requests are rounded to. -/
theorem Exact.isRounded (h : c.Exact) {request : Nat} (below : request ≤ c.chunkSize) :
    IsRounded (rounded request c.chunkSize) := by
  have bits := h.twelve_le_pageBits
  rcases Nat.lt_or_eq_of_le below with less | full
  · exact isRounded_rounded less
  · rw [rounded, if_pos (Nat.le_of_eq full.symm), full, h.chunkSize_eq]
    exact .inr ⟨_, by omega, rfl⟩

/-- Where a request is served from: a private chunk, whole pages, or a slot. -/
theorem Exact.ofSize_rounded (h : c.Exact) (request : Nat) :
    ∃ kind, Class.ofSize (rounded request c.chunkSize) c.pageSize c.chunkSize = kind ∧
      kind.isNumbered (rounded request c.chunkSize) = true ∧
      (kind = .huge ∧ c.chunkSize < request ∧ rounded request c.chunkSize = request ∨
        kind = .normal ∧ c.pageSize ≤ rounded request c.chunkSize ∧
          rounded request c.chunkSize ≤ c.chunkSize ∧ c.pageSize ∣ rounded request c.chunkSize ∨
        kind ≠ .huge ∧ kind ≠ .normal ∧ IsSlot c.pageSize (rounded request c.chunkSize)) := by
  rw [h.pageSize_eq, h.chunkSize_eq]
  exact Size.ofSize_rounded h.twelve_le_pageBits h.bits_le request

end PoolConfig

end BufferPool
