import Mathlib.Order.Interval.Finset.Nat
import BufferPool.Proofs.PageMap

/-!
# First fit

The search for a run goes on behind the last used page of each window that it looks at. No window that
starts before that page and reaches it is free, so no start that could do is skipped: the search finds the
lowest one (`PageMap.FirstRoom`), and it finds none only if there is none.
-/

namespace BufferPool.PageMap

variable {m m' : PageMap} {used : Array Bool} {length start page : Nat}

/-- The `length` pages at `page` are all in the chunk, and free. -/
structure Room (used : Array Bool) (length page : Nat) : Prop where
  fits : page + length ≤ used.size
  free : ∀ k < length, isUsed used (page + k) = false

/-- The first `length` neighbouring pages that are free start at `page`. -/
structure FirstRoom (used : Array Bool) (length page : Nat) : Prop extends Room used length page where
  least : ∀ q < page, ¬ Room used length q

theorem Room.isUsed_eq_false (h : Room used length page) {q : Nat} (low : page ≤ q)
    (high : q < page + length) : isUsed used q = false := by
  have := h.free (q - page) (by omega)
  rwa [show page + (q - page) = q by omega] at this

theorem lastUsed?_eq_some {busy : Nat} : ∀ {n : Nat}, lastUsed? used start n = some busy →
    busy < n ∧ isUsed used (start + busy) = true
  | n + 1, h => by
    rw [lastUsed?] at h
    split at h
    · rename_i found
      cases h
      exact ⟨Nat.lt_succ_self _, found⟩
    · exact (lastUsed?_eq_some h).imp_left Nat.lt_succ_of_lt

/-- A search from `start` on finds the lowest start with room, or there is none. -/
theorem firstFit?_cases (used : Array Bool) (length start : Nat) :
    (∃ p, firstFit? used length start = some p ∧ Room used length p ∧
      ∀ q, start ≤ q → q < p → ¬ Room used length q) ∨
    firstFit? used length start = none ∧ ∀ q, start ≤ q → ¬ Room used length q := by
  fun_induction firstFit? used length start with
  | case1 start fits free =>
    exact .inl ⟨start, rfl, ⟨fits, lastUsed?_eq_none.1 free⟩, fun q _ _ => by omega⟩
  | case2 start fits busy found ih =>
    -- Every window that starts up to the used page contains it.
    obtain ⟨inside, taken⟩ := lastUsed?_eq_some found
    have skipped : ∀ q, start ≤ q → q < start + busy + 1 → ¬ Room used length q := fun q _ _ room => by
      rw [room.isUsed_eq_false (q := start + busy) (by omega) (by omega)] at taken
      cases taken
    rcases ih with ⟨p, found, room, least⟩ | ⟨none, crowded⟩
    · refine .inl ⟨p, found, room, fun q low high => ?_⟩
      rcases Nat.lt_or_ge q (start + busy + 1) with before | behind
      · exact skipped q low before
      · exact least q behind high
    · refine .inr ⟨none, fun q low => ?_⟩
      rcases Nat.lt_or_ge q (start + busy + 1) with before | behind
      · exact skipped q low before
      · exact crowded q behind
  | case3 start outside =>
    refine .inr ⟨rfl, fun q _ room => ?_⟩
    have := room.fits
    omega

/-! ## Runs -/

/-- The pages in use are those of the runs. -/
theorem Wf.card_used (h : m.Wf) : ((Finset.range m.count).filter fun q => isUsed m.used q = true).card =
    ∑ p ∈ Finset.range m.count, m.run p := by
  have pages : (Finset.range m.count).filter (fun q => isUsed m.used q = true) =
      (Finset.range m.count).biUnion fun p => Finset.Ico p (p + m.run p) := by
    ext q
    simp only [Finset.mem_filter, Finset.mem_range, Finset.mem_biUnion, Finset.mem_Ico, h.covered]
    constructor
    · rintro ⟨inside, p, low, high⟩
      exact ⟨p, by omega, low, high⟩
    · rintro ⟨p, -, low, high⟩
      have := h.fits p (by omega)
      exact ⟨by omega, p, low, high⟩
  rw [pages, Finset.card_biUnion]
  · exact Finset.sum_congr rfl fun p _ => by simp
  · -- Runs that start at different pages share none.
    have apart : ∀ p q, p < q → Disjoint (Finset.Ico p (p + m.run p)) (Finset.Ico q (q + m.run q)) := by
      intro p q before
      refine Finset.disjoint_left.2 fun x mine other => ?_
      rw [Finset.mem_Ico] at mine other
      have := h.apart p q before (by omega)
      omega
    intro p _ q _ ne
    rcases Nat.lt_or_gt_of_ne ne with before | after
    · exact apart p q before
    · exact (apart q p after).symm

/-- Pages with room are counted as free. -/
theorem Wf.le_free (h : m.Wf) (room : Room m.used length page) : length ≤ m.free := by
  have fits : page + length ≤ m.count := room.fits
  have subset : Finset.Ico page (page + length) ⊆
      (Finset.range m.count).filter fun q => ¬ isUsed m.used q = true := by
    intro q mem
    obtain ⟨low, high⟩ := Finset.mem_Ico.1 mem
    rw [Finset.mem_filter, Finset.mem_range, room.isUsed_eq_false low high]
    exact ⟨by omega, Bool.false_ne_true⟩
  have window := Finset.card_le_card subset
  have split := Finset.card_filter_add_card_filter_not (s := Finset.range m.count)
    (p := fun q => isUsed m.used q = true)
  have account := h.account
  rw [h.card_used, Finset.card_range] at split
  rw [Nat.card_Ico] at window
  omega

/-- A run is taken at the lowest start with room, and it is taken if there is room anywhere. -/
theorem takeRun?_cases (h : m.Wf) (positive : 0 < length) :
    (∃ page m', m.takeRun? length = some (m', .run (.ofNat page)) ∧ FirstRoom m.used length page ∧
      m.Takes length page m') ∨
    m.takeRun? length = none ∧ ∀ page, ¬ Room m.used length page := by
  unfold takeRun?
  by_cases short : length = 0 ∨ m.free < length
  · refine .inr ⟨if_pos short, fun page room => ?_⟩
    have := h.le_free room
    omega
  · rw [if_neg short]
    rcases firstFit?_cases m.used length 0 with ⟨page, found, room, least⟩ | ⟨none, crowded⟩
    · rw [found]
      exact .inl ⟨page, _, rfl, ⟨room, fun q => least q (Nat.zero_le q)⟩,
        takes_of_free h positive (h.le_free room) room.fits fun q => room.isUsed_eq_false⟩
    · rw [none]
      exact .inr ⟨rfl, fun page => crowded page (Nat.zero_le page)⟩

/-- The pages in use after a run was taken. -/
theorem Takes.isUsed_iff (h : m.Wf) (t : m.Takes length page m') {q : Nat} :
    isUsed m'.used q = true ↔ isUsed m.used q = true ∨ page ≤ q ∧ q < page + length := by
  have idle : m.run page = 0 := h.run_of_unused
    (t.free page (Nat.le_refl page) (Nat.lt_add_of_pos_right t.positive))
  rw [t.wf.covered, h.covered]
  constructor
  · rintro ⟨p, low, high⟩
    rw [t.run] at high
    split at high
    · rename_i here
      exact .inr (here ▸ ⟨low, high⟩)
    · exact .inl ⟨p, low, high⟩
  · rintro (⟨p, low, high⟩ | ⟨low, high⟩)
    · refine ⟨p, low, ?_⟩
      rw [t.run, if_neg]
      · exact high
      · rintro rfl
        omega
    · refine ⟨page, low, ?_⟩
      rwa [t.run, if_pos rfl]

end BufferPool.PageMap
