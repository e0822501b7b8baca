import Mathlib.Algebra.BigOperators.Group.Finset.Basic
import Mathlib.Algebra.Order.Ring.Nat
import BufferPool.PageMap
import BufferPool.Proofs.Checked
import BufferPool.Proofs.Locator

/-!
# Leased runs of pages

`PageMap.run` reads the length of the run that starts at a page. In a well-formed map (`PageMap.Wf`) the
runs are disjoint, the marks cover exactly the runs, and the counter holds what the runs leave. Taking
and returning a run change `run` at one page and keep the map well formed.
-/

namespace BufferPool.PageMap

variable {m m' : PageMap}

/-- The length of the run that starts at a page, 0 where none starts. -/
def run (m : PageMap) (page : Nat) : Nat := m.runLengths[page]?.getD 0

/-- A map whose runs, marks and counter agree. -/
structure Wf (m : PageMap) : Prop where
  runs_size : m.runLengths.size = m.count
  carved_size : m.carved.size = m.count
  fits : ∀ p, 0 < m.run p → p + m.run p ≤ m.count
  covered : ∀ q, isUsed m.used q = true ↔ ∃ p, p ≤ q ∧ q < p + m.run p
  apart : ∀ p q, p < q → 0 < m.run q → p + m.run p ≤ q
  account : m.free + ∑ p ∈ Finset.range m.count, m.run p = m.count

/-- Two maps of the same pages, with the same subpages recorded. -/
structure SamePages (m m' : PageMap) : Prop where
  pageSize : m'.pageSize = m.pageSize
  count : m'.count = m.count
  carved : m'.carved = m.carved

theorem run_eq_zero (h : m.Wf) {p : Nat} (hp : m.count ≤ p) : m.run p = 0 := by
  rw [run, Array.getElem?_eq_none (by rw [h.runs_size]; exact hp)]
  rfl

/-- A page in the midst of a run is marked. -/
theorem Wf.used_of_run (h : m.Wf) {p q : Nat} (hp : p ≤ q) (hq : q < p + m.run p) :
    isUsed m.used q = true :=
  (h.covered q).2 ⟨p, hp, hq⟩

/-- No run starts at a page that is not marked. -/
theorem Wf.run_of_unused (h : m.Wf) {p : Nat} (hp : isUsed m.used p = false) : m.run p = 0 := by
  by_contra some
  rw [h.used_of_run (Nat.le_refl p) (by omega)] at hp
  cases hp

@[simp] theorem run_ofPages (count pageSize page : Nat) : (ofPages count pageSize).run page = 0 := by
  simp only [run, ofPages, Array.getElem?_replicate]
  split <;> rfl

@[simp] theorem isUsed_ofPages (count pageSize page : Nat) :
    isUsed (ofPages count pageSize).used page = false := by
  simp only [isUsed, ofPages, Array.getElem?_replicate]
  split <;> rfl

@[simp] theorem count_ofPages (count pageSize : Nat) : (ofPages count pageSize).count = count := by
  simp [ofPages, PageMap.count]

theorem wf_ofPages (count pageSize : Nat) : (ofPages count pageSize).Wf where
  runs_size := by simp [ofPages, PageMap.count]
  carved_size := by simp [ofPages, PageMap.count]
  fits p hp := by simp at hp
  covered q := by
    simp only [isUsed_ofPages, run_ofPages, Bool.false_eq_true, false_iff, not_exists, not_and]
    omega
  apart p q _ hq := by simp at hq
  account := by
    rw [Finset.sum_eq_zero fun p _ => run_ofPages count pageSize p, count_ofPages]
    rfl

/-- One changed run changes the sum of the runs. -/
theorem sum_run {f g : Nat → Nat} {n p : Nat} (hp : p < n) (same : ∀ q, q ≠ p → g q = f q) :
    ∑ q ∈ Finset.range n, g q + f p = ∑ q ∈ Finset.range n, f q + g p := by
  have before := Finset.add_sum_erase _ f (Finset.mem_range.2 hp)
  have after := Finset.add_sum_erase _ g (Finset.mem_range.2 hp)
  have rest : ∑ q ∈ (Finset.range n).erase p, g q = ∑ q ∈ (Finset.range n).erase p, f q :=
    Finset.sum_congr rfl fun q hq => same q (Finset.ne_of_mem_erase hq)
  omega

/-! ## Marks -/

@[simp] theorem size_withRange (used : Array Bool) (start : Nat) (value : Bool) (n : Nat) :
    (withRange used start value n).size = used.size := by
  induction n with
  | zero => rfl
  | succ n ih => simp [withRange, ih]

theorem isUsed_withRange (used : Array Bool) (start : Nat) (value : Bool) (n q : Nat) :
    isUsed (withRange used start value n) q =
      if start ≤ q ∧ q < start + n ∧ q < used.size then value else isUsed used q := by
  induction n with
  | zero =>
    rw [withRange, if_neg (by omega)]
  | succ n ih =>
    unfold isUsed at ih ⊢
    rw [withRange, Array.getElem?_setIfInBounds, size_withRange]
    by_cases last : start + n = q
    · subst last
      by_cases inside : start + n < used.size
      · simp [inside]
      · simp [inside]
    · rw [if_neg last, ih]
      by_cases range : start ≤ q ∧ q < start + n ∧ q < used.size
      · rw [if_pos range, if_pos (by omega)]
      · rw [if_neg range, if_neg (by omega)]

theorem lastUsed?_eq_none {used : Array Bool} {start : Nat} : ∀ {n : Nat},
    lastUsed? used start n = none ↔ ∀ k < n, isUsed used (start + k) = false
  | 0 => by simp [lastUsed?]
  | n + 1 => by
    rw [lastUsed?]
    constructor
    · intro h k hk
      split at h
      · cases h
      · rename_i free
        by_cases last : k = n
        · simpa [last] using free
        · exact lastUsed?_eq_none.1 h k (by omega)
    · intro h
      rw [if_neg (by simp [h n (by omega)])]
      exact lastUsed?_eq_none.2 fun k hk => h k (by omega)

/-- A start that is found has a window of free pages. -/
theorem firstFit?_eq_some {used : Array Bool} {length start p : Nat}
    (h : firstFit? used length start = some p) :
    p + length ≤ used.size ∧ ∀ k < length, isUsed used (p + k) = false := by
  fun_induction firstFit? used length start with
  | case1 start room free =>
    cases h
    exact ⟨room, lastUsed?_eq_none.1 free⟩
  | case2 start room busy used ih => exact ih h
  | case3 start room => cases h

/-! ## Taking and returning runs -/

/-- The runs of a map after the entry of one page is written. -/
theorem run_write (h : m.Wf) {page : Nat} (inside : page < m.count) (used : Array Bool)
    (length free q : Nat) : PageMap.run { m with
      used := used
      runLengths := m.runLengths.setIfInBounds page length
      free := free } q = if q = page then length else m.run q := by
  rw [← h.runs_size] at inside
  simp only [PageMap.run, Array.getElem?_setIfInBounds, inside, ↓reduceIte, eq_comm]
  split <;> rfl

/-- A map stays well formed when the run of one page is written anew, apart from all other runs, and the
marks and the counter follow. -/
theorem Wf.change (h : m.Wf) {page length : Nat} (inside : page < m.count) (count : m'.count = m.count)
    (runs : m'.runLengths.size = m.runLengths.size) (carved : m'.carved = m.carved)
    (run : ∀ q, m'.run q = if q = page then length else m.run q) (fits : page + length ≤ m.count)
    (marks : ∀ q, isUsed m'.used q = true ↔
      page ≤ q ∧ q < page + length ∨ ∃ p, p ≠ page ∧ p ≤ q ∧ q < p + m.run p)
    (apart : ∀ p, p ≠ page → 0 < m.run p → p + m.run p ≤ page ∨ page + length ≤ p)
    (account : m'.free + length = m.free + m.run page) : m'.Wf := by
  have mine : m'.run page = length := by rw [run, if_pos rfl]
  have other : ∀ q, q ≠ page → m'.run q = m.run q := fun q hq => by rw [run, if_neg hq]
  refine ⟨?_, ?_, fun p hp => ?_, fun q => ?_, fun p q hpq hq => ?_, ?_⟩
  · rw [runs, h.runs_size, count]
  · rw [carved, h.carved_size, count]
  · rw [count]
    by_cases hp' : p = page
    · rw [hp', mine]
      exact fits
    · rw [other p hp'] at hp ⊢
      exact h.fits p hp
  · rw [marks]
    constructor
    · intro outcome
      rcases outcome with ⟨low, high⟩ | ⟨p, ne, low, high⟩
      · exact ⟨page, low, by rwa [mine]⟩
      · exact ⟨p, low, by rwa [other p ne]⟩
    · intro ⟨p, low, high⟩
      by_cases hp' : p = page
      · subst hp'
        exact .inl ⟨low, by rwa [mine] at high⟩
      · exact .inr ⟨p, hp', low, by rwa [other p hp'] at high⟩
  · by_cases hq' : q = page
    · subst hq'
      rw [other p (Nat.ne_of_lt hpq)]
      by_cases none : m.run p = 0
      · omega
      · rcases apart p (Nat.ne_of_lt hpq) (Nat.pos_of_ne_zero none) with before | after
        · exact before
        · omega
    · rw [other q hq'] at hq
      by_cases hp' : p = page
      · subst hp'
        rw [mine]
        rcases apart q hq' hq with before | after
        · omega
        · exact after
      · rw [other p hp']
        exact h.apart p q hpq hq
  · have sum := sum_run inside other
    have whole := h.account
    rw [count]
    rw [mine] at sum
    omega

/-- What taking a run of `length` pages at `page` does to a map. -/
structure Takes (m : PageMap) (length page : Nat) (m' : PageMap) : Prop where
  wf : m'.Wf
  same : m.SamePages m'
  run : ∀ q, m'.run q = if q = page then length else m.run q
  positive : 0 < length
  fits : page + length ≤ m.count
  free : ∀ q, page ≤ q → q < page + length → isUsed m.used q = false

theorem Takes.starts {length page : Nat} (h : m.Takes length page m') : 0 < m'.run page := by
  rw [h.run, if_pos rfl]
  exact h.positive

/-- The map with the `length` free pages at `page` taken. -/
theorem takes_of_free (h : m.Wf) {length page : Nat} (positive : 0 < length)
    (room : length ≤ m.free) (fits : page + length ≤ m.count)
    (free : ∀ q, page ≤ q → q < page + length → isUsed m.used q = false) :
    m.Takes length page { m with
      used := withRange m.used page true length
      runLengths := m.runLengths.setIfInBounds page length
      free := m.free - length } := by
  have inside : page < m.count := by omega
  have idle : m.run page = 0 := h.run_of_unused (free page (Nat.le_refl _) (by omega))
  have count : (withRange m.used page true length).size = m.count := size_withRange ..
  have run := run_write h inside (withRange m.used page true length) length (m.free - length)
  refine ⟨h.change inside count Array.size_setIfInBounds rfl run fits (fun q => ?_)
    (fun p ne some => ?_) ?_, ⟨rfl, count, rfl⟩, run, positive, fits, free⟩
  · have size : m.used.size = m.count := rfl
    rw [isUsed_withRange]
    split
    · rename_i range
      exact iff_of_true rfl (.inl ⟨range.1, range.2.1⟩)
    · rename_i range
      rw [h.covered, or_iff_right (by omega)]
      constructor
      · intro ⟨p, low, high⟩
        refine ⟨p, ?_, low, high⟩
        intro equal
        subst equal
        omega
      · intro ⟨p, _, low, high⟩
        exact ⟨p, low, high⟩
  · -- A run that reached into the new one would have marked a page of it.
    by_contra reach
    have used : isUsed m.used (max p page) = true := h.used_of_run (p := p) (by omega) (by omega)
    rw [free (max p page) (by omega) (by omega)] at used
    cases used
  · rw [idle]
    exact Nat.sub_add_cancel room

/-- A run that is taken starts at the first of as many free pages. -/
theorem takes_of_takeRun? (h : m.Wf) {length : Nat} {run : Locator}
    (e : m.takeRun? length = some (m', run)) :
    ∃ page, run = .run (.ofNat page) ∧ m.Takes length page m' := by
  unfold takeRun? at e
  split at e
  · cases e
  · rename_i bounds
    split at e
    · cases e
    · rename_i page found
      cases e
      obtain ⟨fits, free⟩ := firstFit?_eq_some found
      refine ⟨page, rfl, takes_of_free h (by omega) (by omega) fits fun q low high => ?_⟩
      have := free (q - page) (by omega)
      rwa [show page + (q - page) = q by omega] at this

/-- A map without a run has room for every run that is not longer than the map. -/
theorem takeRun?_of_blank (h : m.Wf) (blank : ∀ page, m.run page = 0) {length : Nat}
    (positive : 0 < length) (fits : length ≤ m.count) : ∃ m', m.takeRun? length = some (m', .run 0) := by
  have free : ∀ k, isUsed m.used (0 + k) = false := fun k => by
    refine Bool.eq_false_of_not_eq_true fun used => ?_
    obtain ⟨p, low, high⟩ := (h.covered _).1 used
    rw [blank] at high
    omega
  have found : firstFit? m.used length 0 = some 0 := by
    have size : m.used.size = m.count := rfl
    rw [firstFit?, if_pos (by omega), lastUsed?_eq_none.2 fun k _ => free k]
  have room : ¬ (length = 0 ∨ m.free < length) := by
    have account := h.account
    rw [Finset.sum_eq_zero fun p _ => blank p] at account
    omega
  exact ⟨_, by rw [takeRun?, if_neg room, found]; rfl⟩

theorem runLength_eq (h : m.Wf) {page : Nat} (hp : page < m.count) :
    m.runLength page = .ok (m.run page) := by
  have inside : page < m.runLengths.size := by rw [h.runs_size]; exact hp
  simp [runLength, run, inside]

/-- A run that is returned leaves its pages free and everything else as it was. -/
theorem returnRun_yields (h : m.Wf) {page : Nat} (hr : 0 < m.run page) :
    (m.returnRun page).Yields fun m' => m'.Wf ∧ m.SamePages m' ∧
      ∀ q, m'.run q = if q = page then 0 else m.run q := by
  have fits := h.fits page hr
  have inside : page < m.count := by omega
  have marked : ∀ k < m.run page, isUsed m.used (page + k) = true := fun k hk =>
    h.used_of_run (Nat.le_add_right ..) (by omega)
  have clear : ∀ p, p ≠ page → 0 < m.run p → p + m.run p ≤ page ∨ page + m.run page ≤ p := by
    intro p ne some
    rcases Nat.lt_or_gt_of_ne ne with before | after
    · exact .inl (h.apart p page before hr)
    · exact .inr (h.apart page p after some)
  have count : (withRange m.used page false (m.run page)).size = m.count := size_withRange ..
  have run := run_write h inside (withRange m.used page false (m.run page)) 0 (m.free + m.run page)
  unfold returnRun
  refine .bind_ok (runLength_eq h inside) (.guard (by simpa using hr) (.guard ?_
    (Checked.yields_pure.2 ⟨h.change inside count Array.size_setIfInBounds rfl run (by omega)
      (fun q => ?_) (fun p ne some => (clear p ne some).imp_right (by omega)) rfl,
      ⟨rfl, count, rfl⟩, run⟩)))
  · simp only [allUsed, List.all_eq_true, List.mem_range]
    exact marked
  · have size : m.used.size = m.count := rfl
    rw [isUsed_withRange, or_iff_right (by omega)]
    split
    · rename_i range
      refine iff_of_false nofun ?_
      -- Two runs do not share a page.
      intro ⟨p, ne, low, high⟩
      have := clear p ne (by omega)
      omega
    · rename_i range
      rw [h.covered]
      constructor
      · intro ⟨p, low, high⟩
        refine ⟨p, ?_, low, high⟩
        intro equal
        subst equal
        omega
      · intro ⟨p, _, low, high⟩
        exact ⟨p, low, high⟩

/-- A map without a page in use has no run. -/
theorem Wf.run_of_isEmpty (h : m.Wf) (empty : m.isEmpty = true) (p : Nat) : m.run p = 0 := by
  have account := h.account
  have free : m.free = m.count := by simpa [isEmpty] using empty
  by_cases inside : p < m.count
  · have none : ∑ q ∈ Finset.range m.count, m.run q = 0 := by omega
    exact Finset.sum_eq_zero_iff.1 none p (Finset.mem_range.2 inside)
  · exact run_eq_zero h (by omega)

/-- A map has a page in use exactly if it has a run. -/
theorem Wf.isEmpty_eq_false (h : m.Wf) : m.isEmpty = false ↔ ∃ page, 0 < m.run page := by
  constructor
  · intro occupied
    by_contra none
    push Not at none
    have account := h.account
    rw [Finset.sum_eq_zero fun p _ => Nat.le_zero.1 (none p)] at account
    exact ne_of_beq_false occupied account
  · intro ⟨page, starts⟩
    refine Bool.eq_false_of_not_eq_true fun empty => ?_
    rw [h.run_of_isEmpty empty] at starts
    exact Nat.lt_irrefl 0 starts

theorem Wf.free_le (h : m.Wf) : m.free ≤ m.count :=
  h.account ▸ Nat.le_add_right ..

/-- The runs determine a map: the marks cover them, and the counter holds what they leave. -/
theorem Wf.ext (h : m.Wf) (h' : m'.Wf) (same : m.SamePages m') (run : ∀ page, m'.run page = m.run page) :
    m' = m := by
  have runs : m'.runLengths = m.runLengths := by
    refine Array.ext (by rw [h'.runs_size, h.runs_size, same.count]) fun p inside' inside => ?_
    have lengths := run p
    rwa [PageMap.run, PageMap.run, Array.getElem?_eq_getElem inside, Array.getElem?_eq_getElem inside'] at lengths
  have used : m'.used = m.used := by
    refine Array.ext same.count fun q inside' inside => ?_
    have marks : isUsed m'.used q = isUsed m.used q := by
      rw [Bool.eq_iff_iff, h'.covered, h.covered]
      simp only [run]
    rwa [isUsed, isUsed, Array.getElem?_eq_getElem inside, Array.getElem?_eq_getElem inside'] at marks
  have free : m'.free = m.free := by
    have account := h.account
    have account' := h'.account
    simp only [run, same.count] at account'
    omega
  obtain ⟨_, _, _, _, _⟩ := m
  obtain ⟨_, _, _, _, _⟩ := m'
  cases same.pageSize
  cases same.carved
  cases runs
  cases used
  cases free
  rfl

/-- A run that is taken and returned leaves the map as it was. -/
theorem Takes.returnRun (h : m.Wf) {length page : Nat} (t : m.Takes length page m') :
    m'.returnRun page = .ok m := by
  obtain ⟨m'', returned, wf, same, run⟩ := returnRun_yields t.wf t.starts
  have idle : m.run page = 0 :=
    h.run_of_unused (t.free page (Nat.le_refl _) (Nat.lt_add_of_pos_right t.positive))
  have pages : m.SamePages m'' :=
    ⟨same.pageSize.trans t.same.pageSize, same.count.trans t.same.count, same.carved.trans t.same.carved⟩
  rw [returned, h.ext wf pages fun q => ?_]
  rw [run, t.run]
  split
  · rename_i here
    rw [here, idle]
  · rfl

end BufferPool.PageMap
