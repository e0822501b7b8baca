import Mathlib.Order.Bounds.Basic
import BufferPool.Proofs.Size

/-!
# Rounding picks the least size

The sizes that are carved out of chunks, and those too large for one (`Size.IsLegal`), are an ordered set
that rounding maps a request into, to the least member that is large enough. What is known of such a least
member (it grows with the request, and it is its own least member) follows from that alone.

The class of a rounded size names a list of pages for the sizes below a page only, and there its index
tells the size: `slotIndex` is the index of a tiny size, and that of a small one after all tiny ones.
-/

namespace BufferPool.Size

variable {pageSize chunkSize bits order request other size : Nat}

/-- The sizes that requests are rounded to: multiples of the step below 512, powers of two from there up
to a chunk, and all sizes above a chunk. -/
def IsLegal (chunkSize size : Nat) : Prop :=
  size < tinyLimit ∧ step ∣ size ∨ (∃ k, size = 2 ^ k ∧ tinyLimit ≤ size ∧ size ≤ chunkSize) ∨
    chunkSize < size

theorem IsRounded.isLegal (h : IsRounded size) (le : size ≤ chunkSize) : IsLegal chunkSize size := by
  rcases h with ⟨tiny, aligned⟩ | ⟨k, hk, rfl⟩
  · exact .inl ⟨tiny, Nat.dvd_of_mod_eq_zero aligned⟩
  · have large : 2 ^ 9 ≤ 2 ^ k := Nat.pow_le_pow_right (by omega) hk
    exact .inr (.inl ⟨k, rfl, large, le⟩)

theorem IsLegal.isRounded (h : IsLegal chunkSize size) (le : size ≤ chunkSize) : IsRounded size := by
  rcases h with ⟨tiny, aligned⟩ | ⟨k, rfl, large, -⟩ | above
  · exact .inl ⟨tiny, Nat.mod_eq_zero_of_dvd aligned⟩
  · exact .inr ⟨k, (Nat.pow_le_pow_iff_right (by omega : 1 < 2)).1 large, rfl⟩
  · omega

theorem isLegal_rounded (hbits : 9 ≤ bits) (request : Nat) :
    IsLegal (2 ^ bits) (rounded request (2 ^ bits)) := by
  rcases Nat.lt_trichotomy request (2 ^ bits) with below | same | above
  · exact (isRounded_rounded below).isLegal (rounded_le hbits (Nat.le_of_lt below))
  · have large : 2 ^ 9 ≤ 2 ^ bits := Nat.pow_le_pow_right (by omega) hbits
    rw [rounded, if_pos (Nat.le_of_eq same.symm), same]
    exact .inr (.inl ⟨bits, rfl, large, Nat.le_refl _⟩)
  · rw [rounded, if_pos (Nat.le_of_lt above)]
    exact .inr (.inr above)

/-- No legal size that is large enough is smaller than the one a request is rounded to. -/
theorem rounded_le_of_isLegal (hbits : 9 ≤ bits) (h : IsLegal (2 ^ bits) size) (fits : request ≤ size) :
    rounded request (2 ^ bits) ≤ size := by
  by_cases le : size ≤ 2 ^ bits
  · exact rounded_le_of_isRounded (h.isRounded le) fits _
  by_cases above : 2 ^ bits ≤ request
  · rw [rounded, if_pos above]
    exact fits
  · have := rounded_le hbits (Nat.le_of_not_le above)
    omega

theorem isLeast_rounded (hbits : 9 ≤ bits) (request : Nat) :
    IsLeast {size | IsLegal (2 ^ bits) size ∧ request ≤ size} (rounded request (2 ^ bits)) := by
  constructor
  · exact ⟨isLegal_rounded hbits request, le_rounded request _⟩
  · rintro size ⟨legal, fits⟩
    exact rounded_le_of_isLegal hbits legal fits

/-- A larger request is rounded to a legal size that is large enough for the smaller one as well. -/
theorem rounded_mono (hbits : 9 ≤ bits) (h : request ≤ other) :
    rounded request (2 ^ bits) ≤ rounded other (2 ^ bits) := by
  have above : other ≤ rounded other (2 ^ bits) := le_rounded other _
  exact rounded_le_of_isLegal hbits (isLegal_rounded hbits other) (Nat.le_trans h above)

theorem rounded_rounded (hbits : 9 ≤ bits) (request : Nat) :
    rounded (rounded request (2 ^ bits)) (2 ^ bits) = rounded request (2 ^ bits) := by
  apply Nat.le_antisymm
  · exact rounded_le_of_isLegal hbits (isLegal_rounded hbits request) (Nat.le_refl _)
  · exact le_rounded _ _

/-! ## The class of a request -/

/-- The class of the size that a request is rounded to. -/
def Class.ofRequest (request pageSize chunkSize : Nat) : Class :=
  ofSize (rounded request chunkSize) pageSize chunkSize

/-- Two classes name the same list of pages: both the same tiny size, or both the same small one. -/
def Class.SameList (a b : Class) : Prop :=
  ∃ index, a = .tiny index ∧ b = .tiny index ∨ a = .small index ∧ b = .small index

/-- A slot size is in the list that its position among the slot sizes belongs to, and that list exists. -/
theorem IsSlot.ofSize (h : IsSlot (2 ^ bits) size) (hbits : 12 ≤ bits) (top : bits + order ≤ 30) :
    (∃ index < tinyClasses, Class.ofSize size (2 ^ bits) (2 ^ (bits + order)) = .tiny index ∧
      slotIndex size = index) ∨
    (∃ index < smallClasses (2 ^ bits), Class.ofSize size (2 ^ bits) (2 ^ (bits + order)) = .small index ∧
      slotIndex size = tinyClasses + index) := by
  have least : 2 ^ 12 ≤ 2 ^ bits := Nat.pow_le_pow_right (by omega) hbits
  have page : 2 ^ bits ≤ 2 ^ (bits + order) := Nat.pow_le_pow_right (by omega) (Nat.le_add_right ..)
  have below : size < 2 ^ bits := h.lt least
  rcases h with ⟨tiny, -⟩ | ⟨k, hk, rfl, -⟩
  · obtain ⟨index, lt⟩ := slotIndex_tiny tiny
    exact .inl ⟨size / step, index ▸ lt, ofSize_tiny tiny below (by omega), index⟩
  · have lt : k < bits := (Nat.pow_lt_pow_iff_right (by omega : 1 < 2)).1 below
    refine .inr ⟨k - 9, ?_, (ofSize_small hk (by omega) below (by omega)).1, slotIndex_two_pow hk⟩
    rw [smallClasses_two_pow (by omega)]
    omega

theorem IsSlot.slotIndex_of_tiny (h : IsSlot (2 ^ bits) size) (hbits : 12 ≤ bits)
    (top : bits + order ≤ 30) {index : Nat}
    (tiny : Class.ofSize size (2 ^ bits) (2 ^ (bits + order)) = .tiny index) : slotIndex size = index := by
  rcases h.ofSize hbits top with ⟨i, -, class_eq, position⟩ | ⟨i, -, small, -⟩
  · rw [class_eq, Class.tiny.injEq] at tiny
    rw [position, tiny]
  · simp [small] at tiny

theorem IsSlot.slotIndex_of_small (h : IsSlot (2 ^ bits) size) (hbits : 12 ≤ bits)
    (top : bits + order ≤ 30) {index : Nat}
    (small : Class.ofSize size (2 ^ bits) (2 ^ (bits + order)) = .small index) :
    slotIndex size = tinyClasses + index := by
  rcases h.ofSize hbits top with ⟨i, -, tiny, -⟩ | ⟨i, -, class_eq, position⟩
  · simp [tiny] at small
  · rw [class_eq, Class.small.injEq] at small
    rw [position, small]

/-- Sizes in one list have one position, so they are the same size. -/
theorem IsSlot.sameList_iff (ha : IsSlot (2 ^ bits) size) (hb : IsSlot (2 ^ bits) other)
    (hbits : 12 ≤ bits) (top : bits + order ≤ 30) :
    (Class.ofSize size (2 ^ bits) (2 ^ (bits + order))).SameList
      (Class.ofSize other (2 ^ bits) (2 ^ (bits + order))) ↔ size = other := by
  constructor
  · rintro ⟨index, ⟨tiny, tiny'⟩ | ⟨small, small'⟩⟩
    · apply ha.eq_of_slotIndex hb
      rw [ha.slotIndex_of_tiny hbits top tiny, hb.slotIndex_of_tiny hbits top tiny']
    · apply ha.eq_of_slotIndex hb
      rw [ha.slotIndex_of_small hbits top small, hb.slotIndex_of_small hbits top small']
  · rintro rfl
    rcases ha.ofSize hbits top with ⟨index, -, tiny, -⟩ | ⟨index, -, small, -⟩
    · exact ⟨index, .inl ⟨tiny, tiny⟩⟩
    · exact ⟨index, .inr ⟨small, small⟩⟩

/-- A request is served by a private chunk, by whole pages, or by a slot of a page. -/
theorem ofRequest_cases (hbits : 12 ≤ bits) (top : bits + order ≤ 30) (request : Nat) :
    Class.ofRequest request (2 ^ bits) (2 ^ (bits + order)) = .huge ∧ 2 ^ (bits + order) < request ∨
    Class.ofRequest request (2 ^ bits) (2 ^ (bits + order)) = .normal ∧
      2 ^ bits ≤ rounded request (2 ^ (bits + order)) ∧
      rounded request (2 ^ (bits + order)) ≤ 2 ^ (bits + order) ∧
      2 ^ bits ∣ rounded request (2 ^ (bits + order)) ∨
    Class.ofRequest request (2 ^ bits) (2 ^ (bits + order)) ≠ .huge ∧
      Class.ofRequest request (2 ^ bits) (2 ^ (bits + order)) ≠ .normal ∧
      IsSlot (2 ^ bits) (rounded request (2 ^ (bits + order))) := by
  obtain ⟨kind, class_eq, -, ⟨huge, above, -⟩ | ⟨normal, pages⟩ | ⟨huge, normal, slot⟩⟩ :=
    ofSize_rounded hbits top request
  · exact .inl ⟨class_eq.trans huge, above⟩
  · exact .inr (.inl ⟨class_eq.trans normal, pages⟩)
  · refine .inr (.inr ⟨?_, ?_, slot⟩)
    · rwa [Class.ofRequest, class_eq]
    · rwa [Class.ofRequest, class_eq]

/-- A request is served by a slot once it is rounded to less than a page. -/
theorem isSlot_rounded (hbits : 12 ≤ bits) (top : bits + order ≤ 30)
    (below : rounded request (2 ^ (bits + order)) < 2 ^ bits) :
    IsSlot (2 ^ bits) (rounded request (2 ^ (bits + order))) := by
  have page : 2 ^ bits ≤ 2 ^ (bits + order) := Nat.pow_le_pow_right (by omega) (Nat.le_add_right ..)
  rcases ofRequest_cases hbits top request with ⟨-, above⟩ | ⟨-, run, -⟩ | ⟨-, -, slot⟩
  · have := le_rounded request (2 ^ (bits + order))
    omega
  · omega
  · exact slot

theorem isSlot_of_sameList (hbits : 12 ≤ bits) (top : bits + order ≤ 30) {kind : Class}
    (h : (Class.ofRequest request (2 ^ bits) (2 ^ (bits + order))).SameList kind) :
    IsSlot (2 ^ bits) (rounded request (2 ^ (bits + order))) := by
  rcases ofRequest_cases hbits top request with ⟨huge, -⟩ | ⟨normal, -⟩ | ⟨-, -, slot⟩
  · simp [Class.SameList, huge] at h
  · simp [Class.SameList, normal] at h
  · exact slot

theorem Class.SameList.symm {a b : Class} (h : a.SameList b) : b.SameList a := by
  obtain ⟨index, ⟨tinyA, tinyB⟩ | ⟨smallA, smallB⟩⟩ := h
  · exact ⟨index, .inl ⟨tinyB, tinyA⟩⟩
  · exact ⟨index, .inr ⟨smallB, smallA⟩⟩

theorem ofRequest_sameList_iff (hbits : 12 ≤ bits) (top : bits + order ≤ 30) :
    (Class.ofRequest request (2 ^ bits) (2 ^ (bits + order))).SameList
      (Class.ofRequest other (2 ^ bits) (2 ^ (bits + order))) ↔
    rounded request (2 ^ (bits + order)) < 2 ^ bits ∧
      rounded request (2 ^ (bits + order)) = rounded other (2 ^ (bits + order)) := by
  constructor
  · intro same
    have slot := isSlot_of_sameList hbits top same
    have slot' := isSlot_of_sameList hbits top same.symm
    have least : 2 ^ 12 ≤ 2 ^ bits := Nat.pow_le_pow_right (by omega) hbits
    exact ⟨slot.lt least, (slot.sameList_iff slot' hbits top).1 same⟩
  · rintro ⟨below, same⟩
    have slot := isSlot_rounded hbits top below
    exact (slot.sameList_iff (same ▸ slot) hbits top).2 same

/-- What the size and the class of a request are, against the other sizes and the other requests. -/
structure Classifies (pageSize chunkSize request : Nat) : Prop where
  least : IsLeast {size | IsLegal chunkSize size ∧ request ≤ size} (rounded request chunkSize)
  monotone : ∀ other, request ≤ other → rounded request chunkSize ≤ rounded other chunkSize
  idempotent : rounded (rounded request chunkSize) chunkSize = rounded request chunkSize
  /-- The power of two above a request below a chunk is a machine word. -/
  power_lt : request < chunkSize → Word.powerOfTwoAbove request < Word.bound
  rounded_lt : rounded request chunkSize < Word.bound
  huge_iff : Class.ofRequest request pageSize chunkSize = .huge ↔ chunkSize < request
  normal_iff : Class.ofRequest request pageSize chunkSize = .normal ↔
    pageSize ≤ rounded request chunkSize ∧ rounded request chunkSize ≤ chunkSize
  pages : Class.ofRequest request pageSize chunkSize = .normal → pageSize ∣ rounded request chunkSize
  /-- All other requests belong to a list that exists. -/
  listed : Class.ofRequest request pageSize chunkSize ≠ .huge →
    Class.ofRequest request pageSize chunkSize ≠ .normal →
      (∃ index < 32, Class.ofRequest request pageSize chunkSize = .tiny index) ∨
        ∃ index < smallClasses pageSize, Class.ofRequest request pageSize chunkSize = .small index
  /-- The index of a small size is a difference of machine words that is not negative. -/
  numbered : (Class.ofRequest request pageSize chunkSize).isNumbered (rounded request chunkSize) = true
  sameList_iff : ∀ other,
    (Class.ofRequest request pageSize chunkSize).SameList (Class.ofRequest other pageSize chunkSize) ↔
      rounded request chunkSize < pageSize ∧ rounded request chunkSize = rounded other chunkSize

theorem rounded_lt_bound (hbits : 9 ≤ bits) (top : bits ≤ 30) (word : request < Word.bound) :
    rounded request (2 ^ bits) < Word.bound := by
  by_cases above : 2 ^ bits ≤ request
  · rw [rounded, if_pos above]
    exact word
  · calc rounded request (2 ^ bits) ≤ 2 ^ bits := rounded_le hbits (Nat.le_of_not_le above)
      _ ≤ 2 ^ 30 := Nat.pow_le_pow_right (by omega) top
      _ < Word.bound := by decide

theorem powerOfTwoAbove_lt_bound (top : bits ≤ 30) (below : request < 2 ^ bits) :
    Word.powerOfTwoAbove request < Word.bound :=
  calc Word.powerOfTwoAbove request ≤ 2 ^ bits := Word.powerOfTwoAbove_le (Nat.le_of_lt below)
    _ ≤ 2 ^ 30 := Nat.pow_le_pow_right (by omega) top
    _ < Word.bound := by decide

theorem ofRequest_eq_huge_iff (hbits : 12 ≤ bits) (top : bits + order ≤ 30) :
    Class.ofRequest request (2 ^ bits) (2 ^ (bits + order)) = .huge ↔ 2 ^ (bits + order) < request := by
  constructor
  · intro huge
    rcases ofRequest_cases hbits top request with ⟨-, above⟩ | ⟨normal, -⟩ | ⟨other, -⟩
    · exact above
    · simp [huge] at normal
    · exact absurd huge other
  · intro above
    have larger : 2 ^ (bits + order) < rounded request (2 ^ (bits + order)) :=
      Nat.lt_of_lt_of_le above (le_rounded request _)
    rw [Class.ofRequest, Class.ofSize, if_pos larger]

theorem ofRequest_eq_normal_iff (hbits : 12 ≤ bits) (top : bits + order ≤ 30) :
    Class.ofRequest request (2 ^ bits) (2 ^ (bits + order)) = .normal ↔
      2 ^ bits ≤ rounded request (2 ^ (bits + order)) ∧
        rounded request (2 ^ (bits + order)) ≤ 2 ^ (bits + order) := by
  constructor
  · intro normal
    rcases ofRequest_cases hbits top request with ⟨huge, -⟩ | ⟨-, least, most, -⟩ | ⟨-, other, -⟩
    · simp [normal] at huge
    · exact ⟨least, most⟩
    · exact absurd normal other
  · rintro ⟨least, most⟩
    rw [Class.ofRequest, Class.ofSize, if_neg (by omega), if_pos least]

/-- Requests that are served by whole pages are rounded to whole pages. -/
theorem dvd_of_ofRequest_eq_normal (hbits : 12 ≤ bits) (top : bits + order ≤ 30)
    (normal : Class.ofRequest request (2 ^ bits) (2 ^ (bits + order)) = .normal) :
    2 ^ bits ∣ rounded request (2 ^ (bits + order)) := by
  rcases ofRequest_cases hbits top request with ⟨huge, -⟩ | ⟨-, -, -, pages⟩ | ⟨-, other, -⟩
  · simp [normal] at huge
  · exact pages
  · exact absurd normal other

/-- Every class of slots that a request has is that of a list. -/
theorem ofRequest_listed (hbits : 12 ≤ bits) (top : bits + order ≤ 30)
    (huge : Class.ofRequest request (2 ^ bits) (2 ^ (bits + order)) ≠ .huge)
    (normal : Class.ofRequest request (2 ^ bits) (2 ^ (bits + order)) ≠ .normal) :
    (∃ index < 32, Class.ofRequest request (2 ^ bits) (2 ^ (bits + order)) = .tiny index) ∨
      ∃ index < smallClasses (2 ^ bits),
        Class.ofRequest request (2 ^ bits) (2 ^ (bits + order)) = .small index := by
  rcases ofRequest_cases hbits top request with ⟨isHuge, -⟩ | ⟨isNormal, -⟩ | ⟨-, -, slot⟩
  · exact absurd isHuge huge
  · exact absurd isNormal normal
  · rcases slot.ofSize hbits top with ⟨index, lt, tiny, -⟩ | ⟨index, lt, small, -⟩
    · exact .inl ⟨index, lt, tiny⟩
    · exact .inr ⟨index, lt, small⟩

theorem isNumbered_ofRequest (hbits : 12 ≤ bits) (top : bits + order ≤ 30) (request : Nat) :
    (Class.ofRequest request (2 ^ bits) (2 ^ (bits + order))).isNumbered
      (rounded request (2 ^ (bits + order))) = true := by
  obtain ⟨kind, class_eq, numbered, -⟩ := ofSize_rounded hbits top request
  rw [Class.ofRequest, class_eq]
  exact numbered

theorem classifies_two_pow (hbits : 12 ≤ bits) (top : bits + order ≤ 30) (word : request < Word.bound) :
    Classifies (2 ^ bits) (2 ^ (bits + order)) request where
  least := isLeast_rounded (by omega) request
  monotone _ := rounded_mono (by omega)
  idempotent := rounded_rounded (by omega) request
  power_lt := powerOfTwoAbove_lt_bound top
  rounded_lt := rounded_lt_bound (by omega) top word
  huge_iff := ofRequest_eq_huge_iff hbits top
  normal_iff := ofRequest_eq_normal_iff hbits top
  pages := dvd_of_ofRequest_eq_normal hbits top
  listed := ofRequest_listed hbits top
  numbered := isNumbered_ofRequest hbits top request
  sameList_iff _ := ofRequest_sameList_iff hbits top

/-- For every page size and every chunk of pages up to 2^30 bytes, a request is rounded to the least legal
size, and its class tells where it is served from, and its size among the slots. -/
theorem request_classifies {k : Nat} (power : Word.isPowerOfTwo pageSize = true)
    (least : 4096 ≤ pageSize) (chunk : pageSize * 2 ^ k ≤ 2 ^ 30) (word : request < Word.bound) :
    Classifies pageSize (pageSize * 2 ^ k) request := by
  rw [Word.isPowerOfTwo_eq power] at least chunk ⊢
  rw [← Nat.pow_add] at chunk ⊢
  have bits : 12 ≤ pageSize.log2 := (Nat.pow_le_pow_iff_right (by omega : 1 < 2)).1 least
  have top : pageSize.log2 + k ≤ 30 := (Nat.pow_le_pow_iff_right (by omega : 1 < 2)).1 chunk
  exact classifies_two_pow bits top word

/-- The largest chunk there is, of the smallest pages, for the first request above its half. -/
theorem request_classifies_half :
    Word.isPowerOfTwo 4096 = true ∧ 4096 ≤ 4096 ∧ 4096 * 2 ^ 18 ≤ 2 ^ 30 ∧ 2 ^ 29 + 1 < Word.bound ∧
      Classifies 4096 (4096 * 2 ^ 18) (2 ^ 29 + 1) :=
  ⟨by decide, by decide, by decide, by decide,
    request_classifies (by decide) (by decide) (by decide) (by decide)⟩

end BufferPool.Size
