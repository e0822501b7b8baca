import Mathlib.Order.Bounds.Basic
import BufferPool.Proofs.FirstFit

/-!
# A chunk as a set of runs

What the arrays and the counter of a page map hold together is one set: the leased runs, each with its
first page and its length (`PageMap.leases`). Along every sequence of requests the runs stay disjoint,
a run is taken at the lowest start whose pages no run has, a run is given back by its first page and by
nothing else, and the figures of the map are those of the set (`PageMap.leases_firstFit`).
-/

namespace BufferPool.PageMap

variable {m m' : PageMap} {used : Array Bool} {count pageSize length start page : Nat} {r : Nat × Nat}

/-! ## Requests -/

/-- A request for pages of a chunk. -/
inductive Request where
  /-- Leases a run of `length` pages. -/
  | take (length : Nat)
  /-- Returns the run that starts at `page`. -/
  | giveBack (page : Nat)

/-- The map after a request. A run that cannot be had leaves it as it is. -/
def answer (m : PageMap) : Request → Checked PageMap
  | .take length => .ok ((m.takeRun? length).elim m Prod.fst)
  | .giveBack page => m.returnRun page

/-- The map after a sequence of requests. -/
def play (m : PageMap) : List Request → Checked PageMap
  | [] => .ok m
  | request :: rest => do (← m.answer request).play rest

/-! ## The set of runs -/

/-- The leased runs, each as its first page and its length. -/
def leases (m : PageMap) : Finset (Nat × Nat) :=
  ((Finset.range m.count).filter fun p => 0 < m.run p).image fun p => (p, m.run p)

/-- The pages of a run. -/
def pagesOf (r : Nat × Nat) : Finset Nat := Finset.Ico r.1 (r.1 + r.2)

/-- The `length` pages at `start` are among the first `count`, and no run has one of them. -/
structure Vacant (count : Nat) (runs : Finset (Nat × Nat)) (length start : Nat) : Prop where
  fits : start + length ≤ count
  free : ∀ q ∈ pagesOf (start, length), ∀ r ∈ runs, q ∉ pagesOf r

/-- The search for a run, given up after `windows` windows. -/
def searchWithin (used : Array Bool) (length : Nat) : (windows start : Nat) → Option (Option Nat)
  | 0, _ => none
  | windows + 1, start =>
    if start + length ≤ used.size then
      match lastUsed? used start length with
      | none => some (some start)
      | some busy => searchWithin used length windows (start + busy + 1)
    else some none

@[simp] theorem mem_pagesOf {q : Nat} : q ∈ pagesOf r ↔ r.1 ≤ q ∧ q < r.1 + r.2 :=
  Finset.mem_Ico

theorem mem_leases (h : m.Wf) : r ∈ m.leases ↔ m.run r.1 = r.2 ∧ 0 < r.2 := by
  obtain ⟨p, n⟩ := r
  simp only [leases, Finset.mem_image, Finset.mem_filter, Finset.mem_range, Prod.mk.injEq]
  constructor
  · rintro ⟨p, ⟨-, some⟩, rfl, rfl⟩
    exact ⟨rfl, some⟩
  · rintro ⟨rfl, some⟩
    have := h.fits p some
    exact ⟨p, ⟨by omega, some⟩, rfl, rfl⟩

theorem leases_ofPages (count pageSize : Nat) : (ofPages count pageSize).leases = ∅ :=
  Finset.eq_empty_of_forall_notMem fun r mem => by
    obtain ⟨starts, some⟩ := (mem_leases (wf_ofPages ..)).1 mem
    rw [run_ofPages] at starts
    omega

/-- The marked pages are those of the runs. -/
theorem Wf.isUsed_iff (h : m.Wf) {q : Nat} :
    isUsed m.used q = true ↔ ∃ r ∈ m.leases, q ∈ pagesOf r := by
  rw [h.covered]
  constructor
  · rintro ⟨p, low, high⟩
    exact ⟨(p, m.run p), (mem_leases h).2 ⟨rfl, by omega⟩, mem_pagesOf.2 ⟨low, high⟩⟩
  · rintro ⟨r, mem, within⟩
    rw [mem_pagesOf, ← ((mem_leases h).1 mem).1] at within
    exact ⟨r.1, within⟩

theorem Wf.disjoint_leases (h : m.Wf) : (m.leases : Set (Nat × Nat)).PairwiseDisjoint pagesOf := by
  -- Of two runs the one that starts first ends before the other starts.
  have before : ∀ r ∈ m.leases, ∀ s ∈ m.leases, r.1 < s.1 → Disjoint (pagesOf r) (pagesOf s) := by
    intro r hr s hs lt
    obtain ⟨startsr, -⟩ := (mem_leases h).1 hr
    obtain ⟨startss, some⟩ := (mem_leases h).1 hs
    have apart := h.apart r.1 s.1 lt (by omega)
    refine Finset.disjoint_left.2 fun q mine other => ?_
    rw [mem_pagesOf] at mine other
    omega
  intro r hr s hs ne
  rcases Nat.lt_trichotomy r.1 s.1 with lt | same | gt
  · exact before r hr s hs lt
  · refine absurd (Prod.ext same ?_) ne
    rw [← ((mem_leases h).1 hr).1, ← ((mem_leases h).1 hs).1, same]
  · exact (before s hs r hr gt).symm

/-- The lengths of the runs add up to what is not free. -/
theorem Wf.sum_leases (h : m.Wf) : m.free + ∑ r ∈ m.leases, r.2 = m.count := by
  have lengths : ∑ r ∈ m.leases, r.2 = ∑ p ∈ Finset.range m.count, m.run p := by
    rw [leases, Finset.sum_image fun p _ q _ same => (Prod.mk.inj same).1]
    exact Finset.sum_filter_of_ne fun p _ ne => Nat.pos_of_ne_zero ne
  rw [lengths]
  exact h.account

theorem Wf.room_iff (h : m.Wf) : Room m.used length start ↔ Vacant m.count m.leases length start := by
  constructor
  · intro room
    refine ⟨room.fits, fun q within r mem inside => ?_⟩
    rw [mem_pagesOf] at within
    have marked := h.isUsed_iff.2 ⟨r, mem, inside⟩
    rw [room.isUsed_eq_false within.1 within.2] at marked
    cases marked
  · intro vacant
    refine ⟨vacant.fits, fun k lt => Bool.eq_false_of_not_eq_true fun marked => ?_⟩
    obtain ⟨r, mem, inside⟩ := h.isUsed_iff.1 marked
    exact vacant.free _ (mem_pagesOf.2 ⟨Nat.le_add_right .., Nat.add_lt_add_left lt _⟩) r mem inside

/-- A vacant start, where there is one, has a lowest one. -/
theorem exists_least_vacant {runs : Finset (Nat × Nat)} (vacant : Vacant count runs length start) :
    ∃ first, IsLeast {p | Vacant count runs length p} first := by
  classical
  have some : ∃ p, Vacant count runs length p := ⟨start, vacant⟩
  exact ⟨Nat.find some, Nat.find_spec some, fun _ other => Nat.find_min' some other⟩

/-! ## The search ends -/

/-- A window behind each start is as many windows as the search looks at. -/
theorem searchWithin_eq {windows : Nat} (inside : start ≤ used.size)
    (enough : used.size < start + windows) :
    searchWithin used length windows start = some (firstFit? used length start) := by
  induction windows generalizing start with
  | zero => omega
  | succ windows ih =>
    rw [searchWithin, firstFit?]
    split
    · rename_i fits
      cases found : lastUsed? used start length with
      | none => rfl
      | some busy =>
        have := (lastUsed?_eq_some found).1
        exact ih (by omega) (by omega)
    · rfl

/-! ## One request -/

theorem Takes.leases_eq (h : m.Wf) (t : m.Takes length start m') :
    m'.leases = insert (start, length) m.leases := by
  have idle : m.run start = 0 := h.run_of_unused
    (t.free start (Nat.le_refl start) (Nat.lt_add_of_pos_right t.positive))
  have positive := t.positive
  ext ⟨p, n⟩
  rw [mem_leases t.wf, Finset.mem_insert, mem_leases h, t.run, Prod.mk.injEq]
  by_cases here : p = start
  · subst here
    simp only [↓reduceIte, true_and, idle]
    omega
  · simp only [here, ↓reduceIte, false_and, false_or]

/-- A run is taken at the lowest vacant start. -/
theorem takeRun?_of_least (h : m.Wf) (positive : 0 < length)
    (least : IsLeast {p | Vacant m.count m.leases length p} start) :
    ∃ m', m.takeRun? length = some (m', .run (.ofNat start)) ∧
      m'.leases = insert (start, length) m.leases := by
  rcases takeRun?_cases h positive with ⟨page, m', taken, first, takes⟩ | ⟨-, crowded⟩
  · have lowest : page = start := Nat.le_antisymm
      (Nat.le_of_not_lt fun lower => first.least _ lower (h.room_iff.2 least.1))
      (least.2 (h.room_iff.1 first.toRoom))
    subst lowest
    exact ⟨m', taken, takes.leases_eq h⟩
  · exact absurd (h.room_iff.2 least.1) (crowded start)

theorem takeRun?_eq_none (h : m.Wf) : m.takeRun? length = none ↔
    length = 0 ∨ ∀ start, ¬ Vacant m.count m.leases length start := by
  constructor
  · intro none
    refine or_iff_not_imp_left.2 fun positive start vacant => ?_
    obtain ⟨first, least⟩ := exists_least_vacant vacant
    obtain ⟨m', taken, -⟩ := takeRun?_of_least h (Nat.pos_of_ne_zero positive) least
    rw [taken] at none
    cases none
  · rintro (rfl | crowded)
    · rw [takeRun?, if_pos (.inl rfl)]
    · by_cases positive : 0 < length
      · rcases takeRun?_cases h positive with ⟨page, m', -, first, -⟩ | ⟨none, -⟩
        · exact absurd (h.room_iff.1 first.toRoom) (crowded page)
        · exact none
      · rw [takeRun?, if_pos (.inl (by omega))]

/-- A run is given back by its first page. -/
theorem returnRun_of_mem (h : m.Wf) (mem : r ∈ m.leases) :
    (m.returnRun r.1).Yields fun m' => m'.Wf ∧ m.SamePages m' ∧ m'.leases = m.leases.erase r := by
  obtain ⟨starts, some⟩ := (mem_leases h).1 mem
  refine (returnRun_yields h (starts ▸ some)).mono fun m' ⟨wf, same, run⟩ => ⟨wf, same, ?_⟩
  ext ⟨p, n⟩
  rw [mem_leases wf, Finset.mem_erase, mem_leases h, run, Ne, Prod.ext_iff]
  by_cases here : p = r.1
  · subst here
    simp only [↓reduceIte, true_and, starts]
    omega
  · simp only [here, ↓reduceIte, false_and, not_false_eq_true, true_and]

theorem run_of_none (h : m.Wf) (none : ∀ length, (page, length) ∉ m.leases) : m.run page = 0 := by
  by_contra some
  exact none _ ((mem_leases h).2 ⟨rfl, Nat.pos_of_ne_zero some⟩)

/-- Without a run that starts there, a page is not given back. -/
theorem returnRun_of_none (h : m.Wf) (none : ∀ length, (page, length) ∉ m.leases) :
    m.returnRun page = .error (if page < m.count then .notRunStart page else .indexOutOfBounds) := by
  split
  · rename_i inside
    rw [returnRun, runLength_eq h inside, run_of_none h none]
    rfl
  · rename_i outside
    rw [returnRun, runLength, Array.getElem?_eq_none (by rw [h.runs_size]; omega)]
    rfl

theorem runSize_eq (h : m.Wf) (inside : page < m.count) :
    m.runSize page = Word.mul (m.run page) m.pageSize := by
  rw [runSize, runLength_eq h inside]
  rfl

/-! ## Every sequence of requests -/

theorem SamePages.rfl : m.SamePages m := ⟨.refl _, .refl _, .refl _⟩

theorem SamePages.trans {m'' : PageMap} (h : m.SamePages m') (h' : m'.SamePages m'') : m.SamePages m'' :=
  ⟨h'.pageSize.trans h.pageSize, h'.count.trans h.count, h'.carved.trans h.carved⟩

/-- Each request keeps the map well formed, and the pages the same. -/
theorem answer_gives (h : m.Wf) (request : Request) :
    (m.answer request).Gives fun m' => m'.Wf ∧ m.SamePages m' := by
  cases request with
  | take length =>
    refine Checked.gives_ok.2 ?_
    cases taken : m.takeRun? length with
    | none => exact ⟨h, .rfl⟩
    | some outcome =>
      obtain ⟨m', run⟩ := outcome
      obtain ⟨start, -, takes⟩ := takes_of_takeRun? h taken
      exact ⟨takes.wf, takes.same⟩
  | giveBack page =>
    by_cases some : ∃ length, (page, length) ∈ m.leases
    · obtain ⟨length, mem⟩ := some
      exact (returnRun_of_mem h mem).gives.mono fun m' ⟨wf, same, _⟩ => ⟨wf, same⟩
    · rw [answer, returnRun_of_none h (not_exists.1 some)]
      exact Checked.gives_error

theorem play_gives (h : m.Wf) (requests : List Request) :
    (m.play requests).Gives fun m' => m'.Wf ∧ m.SamePages m' := by
  induction requests generalizing m with
  | nil => exact Checked.gives_ok.2 ⟨h, .rfl⟩
  | cons request rest ih =>
    refine (answer_gives h request).bind fun m' ⟨wf, same⟩ => ?_
    exact (ih wf).mono fun m'' ⟨wf, same'⟩ => ⟨wf, same.trans same'⟩

/-- A map of `count` pages of `pageSize` bytes leases its pages as runs, first fit: what the map holds is
the set of the leased runs, and each operation is one on that set. -/
structure LeasesFirstFit (m : PageMap) (count pageSize : Nat) : Prop where
  inside : ∀ r ∈ m.leases, 0 < r.2 ∧ r.1 + r.2 ≤ count
  /-- No two runs share a page. -/
  apart : (m.leases : Set (Nat × Nat)).PairwiseDisjoint pagesOf
  /-- The marks are on the pages of the runs. -/
  marked : ∀ q, isUsed m.used q = true ↔ ∃ r ∈ m.leases, q ∈ pagesOf r
  /-- The counter holds what the runs leave. -/
  account : m.free + ∑ r ∈ m.leases, r.2 = count
  usedPages : m.usedPages = ∑ r ∈ m.leases, r.2
  isEmpty : m.isEmpty = true ↔ m.leases = ∅
  runSize : ∀ r ∈ m.leases, m.runSize r.1 = Word.mul r.2 pageSize
  runSize_none : ∀ page < count, (∀ length, (page, length) ∉ m.leases) → m.runSize page = .ok 0
  /-- A run is taken at the lowest vacant start, which its locator names, and no other run changes. -/
  take : ∀ length start, 0 < length → IsLeast {p | Vacant count m.leases length p} start →
    ∃ m', m.takeRun? length = some (m', .run (.ofNat start)) ∧
      (Locator.run (.ofNat start)).page.toNat = start ∧
      m'.leases = insert (start, length) m.leases
  /-- No run is taken, and nothing changes, exactly if no page is asked for or there is no room. -/
  refuse : ∀ length, (m.takeRun? length = none ∧ m.answer (.take length) = .ok m) ↔
    length = 0 ∨ ∀ start, ¬ Vacant count m.leases length start
  /-- A run is given back by its first page, and no other run changes. -/
  giveBack : ∀ r ∈ m.leases, ∃ m', m.returnRun r.1 = .ok m' ∧ m'.leases = m.leases.erase r
  /-- A page that is not the first of a run is not given back. -/
  mismatch : ∀ page, (∀ length, (page, length) ∉ m.leases) → m.returnRun page =
    .error (if page < count then .notRunStart page else .indexOutOfBounds)
  /-- The search for a run ends after as many windows as there are pages, and one. -/
  search : ∀ length, searchWithin m.used length (count + 1) 0 = some (firstFit? m.used length 0)

theorem Wf.leasesFirstFit (h : m.Wf) (small : m.count < 2 ^ 32) : m.LeasesFirstFit m.count m.pageSize where
  inside r mem := by
    obtain ⟨starts, some⟩ := (mem_leases h).1 mem
    exact ⟨some, starts ▸ h.fits r.1 (starts ▸ some)⟩
  apart := h.disjoint_leases
  marked _ := h.isUsed_iff
  account := h.sum_leases
  usedPages := by
    have account := h.sum_leases
    rw [PageMap.usedPages]
    omega
  isEmpty := by
    constructor
    · intro empty
      refine Finset.eq_empty_of_forall_notMem fun r mem => ?_
      obtain ⟨starts, some⟩ := (mem_leases h).1 mem
      rw [h.run_of_isEmpty empty] at starts
      omega
    · intro none
      have account := h.sum_leases
      rw [none, Finset.sum_empty] at account
      simpa [PageMap.isEmpty] using account
  runSize r mem := by
    obtain ⟨starts, some⟩ := (mem_leases h).1 mem
    have := h.fits r.1 (starts ▸ some)
    rw [runSize_eq h (by omega), starts]
  runSize_none page within none := by
    rw [runSize_eq h within, run_of_none h none]
    exact Word.mul_eq_ok.2 (by simp [Word.bound])
  take length start positive least := by
    obtain ⟨m', taken, leases⟩ := takeRun?_of_least h positive least
    have fits := least.1.fits
    refine ⟨m', taken, ?_, leases⟩
    rw [Locator.page_run, UInt32.toNat_ofNat', Nat.mod_eq_of_lt (by omega)]
  refuse length := by
    rw [← takeRun?_eq_none h]
    refine and_iff_left_of_imp fun none => ?_
    rw [answer, none]
    rfl
  giveBack r mem := by
    obtain ⟨m', returned, -, -, leases⟩ := returnRun_of_mem h mem
    exact ⟨m', returned, leases⟩
  mismatch _ none := returnRun_of_none h none
  search length := searchWithin_eq (Nat.zero_le _) (by rw [PageMap.count]; omega)

/-- Run allocation is exact first fit over disjoint runs, whatever was taken and given back before. -/
theorem leases_firstFit {requests : List Request} (small : count < 2 ^ 32)
    (played : (ofPages count pageSize).play requests = .ok m) :
    (ofPages count pageSize).leases = ∅ ∧ m.LeasesFirstFit count pageSize := by
  obtain ⟨wf, same⟩ := play_gives (wf_ofPages count pageSize) requests m played
  have total : m.count = count := same.count.trans (count_ofPages ..)
  refine ⟨leases_ofPages .., ?_⟩
  have exact := wf.leasesFirstFit (by omega)
  rwa [total, same.pageSize] at exact

/-- Of eight pages two runs are taken, and the first of them is given back. -/
theorem leases_firstFit_gap :
    ∃ m, 8 < 2 ^ 32 ∧ (ofPages 8 4096).play [.take 2, .take 3, .giveBack 0] = .ok m ∧
      m.LeasesFirstFit 8 4096 ∧ m.leases = {(2, 3)} := by
  let m : PageMap :=
    { pageSize := 4096
      runLengths := #[0, 0, 3, 0, 0, 0, 0, 0]
      used := #[false, false, true, true, true, false, false, false]
      free := 5
      carved := .replicate 8 none }
  have played : (ofPages 8 4096).play [.take 2, .take 3, .giveBack 0] = .ok m := by cbv
  exact ⟨m, by decide, played, (leases_firstFit (by decide) played).2, by decide⟩

end BufferPool.PageMap
