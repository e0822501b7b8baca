import Mathlib.Algebra.Group.Nat.Defs
import Mathlib.Data.Finset.Card
import Mathlib.Data.Nat.Find
import BufferPool.Proofs.Checked
import BufferPool.Size.Class
import BufferPool.Subpage.Slots

/-!
# Slots of a page as a set of leased numbers

`Subpage.leased` is the set of slots that the bitmap marks. A well-formed subpage (`Subpage.Wf`) counts
as available exactly the slots outside it, and its hint, if there is one, is a free slot. Carving empties
the set, a claim adds a slot that was not in it, and a release takes one out.
-/

namespace BufferPool.Subpage

variable {s s' : Subpage}

/-! ## Bits of the bitmap -/

theorem toNat_slotBit (slot : Nat) : (slotBit slot).toNat = 2 ^ (slot % 64) := by
  have small : slot % 64 < 64 := Nat.mod_lt _ (by omega)
  have fits : 2 ^ (slot % 64) < 2 ^ 64 := Nat.pow_lt_pow_right (by omega) small
  have one : (1 : UInt64).toNat = 1 := rfl
  rw [slotBit, UInt64.toNat_shiftLeft, UInt64.toNat_ofNat', one,
    Nat.mod_eq_of_lt (by omega : slot % 64 < 2 ^ 64), Nat.mod_eq_of_lt small, Nat.shiftLeft_eq,
    Nat.one_mul, Nat.mod_eq_of_lt fits]

/-- The mark of a slot after a change to the word of a slot. -/
theorem marked_modify {slot : Nat} (f : UInt64 → UInt64) (hs : slot / 64 < s.bitmap.size) (i : Nat) :
    ({ s with bitmap := s.bitmap.modify (slot / 64) f } : Subpage).marked i =
      if slot / 64 = i / 64 then (f (s.bitmap[slot / 64])).toNat.testBit (i % 64) else s.marked i := by
  simp only [marked, Array.getElem?_modify]
  split
  · rename_i same
    rw [← same, Array.getElem?_eq_getElem hs]
    rfl
  · rfl

theorem marked_eq_testBit {i : Nat} (hi : i / 64 < s.bitmap.size) :
    s.marked i = (s.bitmap[i / 64]).toNat.testBit (i % 64) := by
  simp [marked, hi]

theorem marked_set {slot : Nat} (hs : slot / 64 < s.bitmap.size) (i : Nat) :
    ({ s with bitmap := s.bitmap.modify (slot / 64) (· ||| slotBit slot) } : Subpage).marked i =
      (s.marked i || decide (i = slot)) := by
  rw [marked_modify _ hs]
  split
  · rename_i same
    rw [marked_eq_testBit (same ▸ hs), UInt64.toNat_or, Nat.testBit_or, toNat_slotBit,
      Nat.testBit_two_pow]
    simp only [← same]
    congr 2
    simp only [eq_iff_iff]
    omega
  · rename_i other
    have : i ≠ slot := fun e => other (by rw [e])
    simp [this]

theorem marked_flip {slot : Nat} (hs : slot / 64 < s.bitmap.size) (i : Nat) :
    ({ s with bitmap := s.bitmap.modify (slot / 64) (· ^^^ slotBit slot) } : Subpage).marked i =
      (s.marked i ^^ decide (i = slot)) := by
  rw [marked_modify _ hs]
  split
  · rename_i same
    rw [marked_eq_testBit (same ▸ hs), UInt64.toNat_xor, Nat.testBit_xor, toNat_slotBit,
      Nat.testBit_two_pow]
    simp only [← same]
    congr 2
    simp only [eq_iff_iff]
    omega
  · rename_i other
    have : i ≠ slot := fun e => other (by rw [e])
    simp [this]

theorem getElem?_clearWords (bitmap : Array UInt64) (n q : Nat) :
    (clearWords bitmap n)[q]?.getD 0 = if q < n then 0 else bitmap[q]?.getD 0 := by
  induction n with
  | zero => simp [clearWords]
  | succ n ih =>
    rw [clearWords, Array.getElem?_setIfInBounds]
    by_cases last : n = q
    · subst last
      simp only [↓reduceIte, Nat.lt_succ_self]
      split <;> rfl
    · rw [if_neg last, ih]
      by_cases below : q < n
      · rw [if_pos below, if_pos (by omega)]
      · rw [if_neg below, if_neg (by omega)]

@[simp] theorem size_clearWords (bitmap : Array UInt64) (n : Nat) :
    (clearWords bitmap n).size = bitmap.size := by
  induction n with
  | zero => rfl
  | succ n ih => simp [clearWords, ih]

/-! ## The set of leased slots -/

/-- The slots in use. -/
def leased (s : Subpage) : Finset Nat := (Finset.range s.slots).filter fun i => s.marked i

@[simp] theorem mem_leased {i : Nat} : i ∈ s.leased ↔ i < s.slots ∧ s.marked i = true := by
  simp [leased]

/-- A page of this size takes whole words of marks when it is carved into the smallest slots, or at most
one word. -/
def PageFits (pageSize : Nat) : Prop := 1024 ∣ pageSize ∨ pageSize ≤ 1024

/-- Every power of two is such a size. -/
theorem pageFits_two_pow (k : Nat) : PageFits (2 ^ k) := by
  rcases Nat.le_total k 10 with small | large
  · exact .inr (Nat.pow_le_pow_right (by omega) small)
  · exact .inl (Nat.pow_dvd_pow 2 large)

/-- A subpage whose counter, bitmap and hint agree. -/
structure Wf (s : Subpage) : Prop where
  page : PageFits s.pageSize
  words : s.bitmap.size = wordCount s.pageSize
  live : s.liveWords = (s.slots + 63) / 64
  slots_eq : s.slots = s.pageSize / s.slotSize
  size : s.slotSize = 0 ∨ Size.step ≤ s.slotSize
  clear : ∀ i, s.slots ≤ i → s.marked i = false
  account : s.available + s.leased.card = s.slots
  hint : ∀ i, s.hint = some i → i < s.slots ∧ s.marked i = false

/-- Two subpages on the same page. -/
structure SamePage (s s' : Subpage) : Prop where
  chunk : s'.chunk = s.chunk
  page : s'.page = s.page
  offset : s'.offset = s.offset
  pageSize : s'.pageSize = s.pageSize

theorem SamePage.refl (s : Subpage) : s.SamePage s := ⟨rfl, rfl, rfl, rfl⟩

theorem SamePage.trans {s'' : Subpage} (h : s.SamePage s') (h' : s'.SamePage s'') : s.SamePage s'' where
  chunk := h'.chunk.trans h.chunk
  page := h'.page.trans h.page
  offset := h'.offset.trans h.offset
  pageSize := h'.pageSize.trans h.pageSize

/-- Two subpages on the same page, carved alike. -/
structure SameSlots (s s' : Subpage) : Prop extends SamePage s s' where
  slotSize : s'.slotSize = s.slotSize
  slots : s'.slots = s.slots
  active : s'.active = s.active

theorem slots_le {pageSize slotSize : Nat} (h : slotSize = 0 ∨ Size.step ≤ slotSize) :
    pageSize / slotSize ≤ pageSize / 16 := by
  rcases h with rfl | h
  · simp
  · exact Nat.div_le_div_left h (by decide)

/-- The words of a page are enough for its slots. -/
theorem words_enough {pageSize slots : Nat} (hp : PageFits pageSize) (hs : slots ≤ pageSize / 16) :
    (slots + 63) / 64 ≤ wordCount pageSize := by
  unfold wordCount
  rcases hp with whole | small <;> omega

theorem Wf.liveWords_le (h : s.Wf) : s.liveWords ≤ s.bitmap.size := by
  rw [h.live, h.words]
  exact words_enough h.page (h.slots_eq ▸ slots_le h.size)

/-- The word of a slot is live. -/
theorem Wf.word_lt (h : s.Wf) {i : Nat} (hi : i < s.slots) : i / 64 < s.liveWords := by
  rw [h.live]
  omega

theorem Wf.exists_free (h : s.Wf) (ha : 0 < s.available) :
    ∃ i, i < s.slots ∧ s.marked i = false := by
  by_contra none
  have all : s.leased = Finset.range s.slots := by
    apply Finset.filter_true_of_mem
    intro i hi
    by_contra free
    exact none ⟨i, Finset.mem_range.1 hi, by simpa using free⟩
  have count := h.account
  rw [all, Finset.card_range] at count
  omega

/-- While slots are available, there is a lowest free one. -/
theorem Wf.exists_lowest (h : s.Wf) (ha : 0 < s.available) :
    ∃ i, i < s.slots ∧ s.marked i = false ∧ ∀ j < i, s.marked j = true := by
  have free := h.exists_free ha
  obtain ⟨lt, clear⟩ := Nat.find_spec free
  refine ⟨Nat.find free, lt, clear, fun j hj => ?_⟩
  have := Nat.find_min free hj
  simpa [Nat.lt_trans hj lt] using this

theorem Wf.available_le (h : s.Wf) : s.available ≤ s.slots :=
  h.account ▸ Nat.le_add_right ..

theorem leased_eq_empty (h : ∀ i, s.marked i = false) : s.leased = ∅ :=
  Finset.filter_false_of_mem fun i _ => by simp [h i]

theorem marked_ofPage (chunk : Nat) (page : UInt32) (offset pageSize i : Nat) :
    (ofPage chunk page offset pageSize).marked i = false := by
  simp only [marked, ofPage, Array.getElem?_replicate]
  split <;> simp

/-- A page that was never carved. -/
theorem wf_ofPage (chunk : Nat) (page : UInt32) (offset : Nat) {pageSize : Nat}
    (hp : PageFits pageSize) : (ofPage chunk page offset pageSize).Wf where
  page := hp
  words := by simp [ofPage]
  live := by simp [ofPage]
  slots_eq := by simp [ofPage]
  size := .inl rfl
  clear i _ := marked_ofPage chunk page offset pageSize i
  account := by
    rw [leased_eq_empty (marked_ofPage chunk page offset pageSize), Finset.card_empty]
    rfl
  hint i hi := by cases hi

/-! ## Carving, claiming, releasing -/

theorem carve_yields (h : s.Wf) {slotSize : Nat}
    (hs : slotSize = 0 ∨ Size.step ≤ slotSize ∧ slotSize ≤ s.pageSize) :
    (s.carve slotSize).Yields fun s' => s'.Wf ∧ s.SamePage s' ∧ s'.leased = ∅ ∧ s'.active = true ∧
      s'.slotSize = slotSize ∧ s'.available = s'.slots := by
  unfold carve
  refine .guard (by simpa using h.liveWords_le) (Checked.yields_pure.2 ?_)
  set carved : Subpage := { s with
    active := true
    slotSize := slotSize
    bitmap := clearWords s.bitmap s.liveWords
    slots := s.pageSize / slotSize
    available := s.pageSize / slotSize
    hint := if slotSize = 0 then none else some 0
    liveWords := (s.pageSize / slotSize + 63) / 64 } with eq
  have unmarked : ∀ i, carved.marked i = false := by
    intro i
    simp only [marked, eq, getElem?_clearWords]
    split
    · simp
    · rename_i beyond
      exact h.clear i (by rw [h.live] at beyond; omega)
  have none := leased_eq_empty unmarked
  refine ⟨⟨h.page, ?_, rfl, rfl, hs.imp id And.left, fun i _ => unmarked i, ?_, ?_⟩,
    ⟨rfl, rfl, rfl, rfl⟩, none, rfl, rfl, rfl⟩
  · simpa [eq] using h.words
  · rw [none, Finset.card_empty, Nat.add_zero]
  · intro i hi
    refine ⟨?_, unmarked i⟩
    rcases hs with rfl | ⟨least, most⟩
    · simp [eq] at hi
    · unfold Size.step at least
      rw [eq] at hi
      simp only [show slotSize ≠ 0 by omega, ↓reduceIte, Option.some.injEq] at hi
      rw [← hi]
      exact Nat.div_pos most (by omega)

/-- The lowest clear bit of a word. -/
theorem lowestClear?_eq {word : UInt64} {k : Nat} (hk : k < 64)
    (clear : word.toNat.testBit k = false) (below : ∀ j < k, word.toNat.testBit j = true) :
    lowestClear? word = some k :=
  List.find?_range_eq_some.2 ⟨by simp [clear], List.mem_range.2 hk, fun j hj => by simp [below j hj]⟩

/-- A word without a clear bit. -/
theorem lowestClear?_eq_none {word : UInt64} (full : ∀ j < 64, word.toNat.testBit j = true) :
    lowestClear? word = none :=
  List.find?_eq_none.2 fun j hj => by simp [full j (List.mem_range.1 hj)]

/-- The search finds the lowest slot that is free. -/
theorem searchFrom_eq (s : Subpage) : ∀ (words : List UInt64) (index i : Nat),
    i < 64 * words.length → index * 64 + i < s.slots →
    ((words[i / 64]?.getD 0).toNat.testBit (i % 64) = false) →
    (∀ j < i, (words[j / 64]?.getD 0).toNat.testBit (j % 64) = true) →
    s.searchFrom words index = some (index * 64 + i) := by
  intro words
  induction words with
  | nil => intro index i hi; simp at hi
  | cons word rest ih =>
    intro index i hi hs clear below
    by_cases first : i < 64
    · have found : lowestClear? word = some i := by
        refine lowestClear?_eq first ?_ fun j hj => ?_
        · simpa [Nat.div_eq_of_lt first, Nat.mod_eq_of_lt first] using clear
        · have hj64 : j < 64 := by omega
          simpa [Nat.div_eq_of_lt hj64, Nat.mod_eq_of_lt hj64] using below j hj
      rw [searchFrom, found]
      simp [hs]
    · have full : lowestClear? word = none := by
        refine lowestClear?_eq_none fun j hj => ?_
        simpa [Nat.div_eq_of_lt hj, Nat.mod_eq_of_lt hj] using below j (by omega)
      have later : ∀ j, 64 ≤ j → (word :: rest)[j / 64]? = rest[(j - 64) / 64]? := by
        intro j hj
        rw [show j / 64 = (j - 64) / 64 + 1 by omega, List.getElem?_cons_succ]
      have found := ih (index + 1) (i - 64) (by simp at hi; omega) (by omega)
        (by rw [← later i (by omega), show (i - 64) % 64 = i % 64 by omega]; exact clear)
        (fun j hj => by
          have := below (j + 64) (by omega)
          rwa [later (j + 64) (by omega), show j + 64 - 64 = j by omega,
            show (j + 64) % 64 = j % 64 by omega] at this)
      rw [searchFrom, full]
      simp only [found]
      exact congrArg some (by omega)

/-- The slot that the next lease takes is free; without a hint it is the lowest free one. -/
theorem nextFree?_yields (h : s.Wf) (ha : 0 < s.available) :
    s.nextFree?.Yields fun found => ∃ i, found = some i ∧ i < s.slots ∧ s.marked i = false ∧
      (s.hint = none → ∀ j < i, s.marked j = true) := by
  unfold nextFree?
  cases hint : s.hint with
  | some i => exact Checked.yields_ok.2 ⟨i, rfl, (h.hint i hint).1, (h.hint i hint).2, by simp⟩
  | none =>
    unfold lowestFree?
    refine .guard (by simpa using h.liveWords_le) (Checked.yields_pure.2 ?_)
    obtain ⟨i, lt, clear, below⟩ := h.exists_lowest ha
    have live := h.liveWords_le
    have last := h.word_lt lt
    have word : ∀ j < s.slots, ((s.bitmap.extract 0 s.liveWords).toList[j / 64]?.getD 0) =
        s.bitmap[j / 64]?.getD 0 := by
      intro j hj
      have := h.word_lt hj
      simp [this]
    have found := searchFrom_eq s (s.bitmap.extract 0 s.liveWords).toList 0 i
      (by simp; omega) (by simpa using lt) (by rw [word i lt]; exact clear)
      (fun j hj => by rw [word j (by omega)]; exact below j hj)
    exact ⟨i, by simpa using found, lt, clear, fun _ => below⟩

/-- A claim leases a slot that was free. -/
theorem claim_yields (h : s.Wf) (ha : 0 < s.available) :
    s.claim.Yields fun r => r.1.Wf ∧ s.SameSlots r.1 ∧ r.2 < s.slots ∧ r.2 ∉ s.leased ∧
      r.1.leased = insert r.2 s.leased ∧ r.1.available + 1 = s.available := by
  unfold claim
  refine (nextFree?_yields h ha).bind ?_
  intro _ outcome
  obtain ⟨slot, rfl, lt, free, -⟩ := outcome
  have inside : slot / 64 < s.bitmap.size := Nat.lt_of_lt_of_le (h.word_lt lt) h.liveWords_le
  refine .guard (by simpa using inside) (.guard (by simp [free]) ?_)
  refine .bind_ok (Word.sub_ok ha) (Checked.yields_pure.2 ?_)
  set claimed : Subpage := { s with
    hint := none
    bitmap := s.bitmap.modify (slot / 64) (· ||| slotBit slot)
    available := s.available - 1 } with eq
  have marked : ∀ i, claimed.marked i = (s.marked i || decide (i = slot)) :=
    marked_set inside
  have leased : claimed.leased = insert slot s.leased := by
    ext i
    simp only [mem_leased, Finset.mem_insert, marked, Bool.or_eq_true, decide_eq_true_eq]
    grind
  have new : slot ∉ s.leased := by simp [free]
  refine ⟨⟨h.page, ?_, h.live, h.slots_eq, h.size, fun i hi => ?_, ?_, fun i hi => by cases hi⟩,
    ⟨⟨rfl, rfl, rfl, rfl⟩, rfl, rfl, rfl⟩, lt, new, leased, ?_⟩
  · simpa [eq] using h.words
  · change s.slots ≤ i at hi
    rw [marked, h.clear i hi, Bool.false_or, decide_eq_false_iff_not]
    omega
  · have count := h.account
    rw [leased, Finset.card_insert_of_notMem new]
    change s.available - 1 + (s.leased.card + 1) = s.slots
    omega
  · change s.available - 1 + 1 = s.available
    omega

/-- A release gives back a slot that was leased. -/
theorem release_yields (h : s.Wf) {slot : Nat} (hs : slot ∈ s.leased) :
    (s.release slot).Yields fun s' => s'.Wf ∧ s.SameSlots s' ∧ s'.leased = s.leased.erase slot ∧
      s'.available = s.available + 1 := by
  obtain ⟨lt, marks⟩ := mem_leased.1 hs
  unfold release
  have inside : slot / 64 < s.bitmap.size := Nat.lt_of_lt_of_le (h.word_lt lt) h.liveWords_le
  refine .guard (by simpa using lt) (.guard (by simpa using inside) (.guard marks
    (Checked.yields_pure.2 ?_)))
  set freed : Subpage := { s with
    bitmap := s.bitmap.modify (slot / 64) (· ^^^ slotBit slot)
    hint := some slot
    available := s.available + 1 } with eq
  have marked : ∀ i, freed.marked i = (s.marked i ^^ decide (i = slot)) :=
    marked_flip inside
  have leased : freed.leased = s.leased.erase slot := by
    ext i
    simp only [mem_leased, Finset.mem_erase, marked]
    by_cases e : i = slot <;> simp [e, marks]
    exact fun _ => Iff.rfl
  refine ⟨⟨h.page, ?_, h.live, h.slots_eq, h.size, fun i hi => ?_, ?_, ?_⟩,
    ⟨⟨rfl, rfl, rfl, rfl⟩, rfl, rfl, rfl⟩, leased, rfl⟩
  · simpa [eq] using h.words
  · change s.slots ≤ i at hi
    rw [marked, h.clear i hi, Bool.false_xor, decide_eq_false_iff_not]
    omega
  · have count := h.account
    have some := Finset.card_erase_add_one hs
    rw [leased]
    change s.available + 1 + (s.leased.erase slot).card = s.slots
    omega
  · intro i hi
    cases hi
    exact ⟨lt, by simp [marked, marks]⟩

/-- An idle subpage has no slot leased. -/
theorem Wf.isFullyFree_iff (h : s.Wf) : s.isFullyFree = true ↔ s.leased = ∅ := by
  have count := h.account
  rw [isFullyFree, beq_iff_eq, ← Finset.card_eq_zero]
  omega

end BufferPool.Subpage
