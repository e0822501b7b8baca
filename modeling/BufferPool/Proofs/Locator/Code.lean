import BufferPool.Proofs.Locator

/-!
# Locators as a code

A locator stands for a run, by its first page, or for a slot of a page (`Locator.Target`). Packing a target and
reading it back undo each other: every target that can be packed is read back from its locator, and a word is
packed again from what is read off it as long as bit 63 is clear and the mark is set, or the whole high word is
clear (`Locator.lossless`). So no two targets share a locator. Slot 0 of a page in particular is not the run
that starts there.
-/

namespace BufferPool.Locator

/-- What a locator stands for. -/
inductive Target where
  | run (page : UInt32)
  | slot (page slot : UInt32)
deriving DecidableEq

/-- The locator of a target. -/
def Target.pack : Target → Checked Locator
  | .run p => .ok (Locator.run p)
  | .slot p k => Locator.slot p k

/-- What is read off a locator. -/
def target (l : Locator) : Target :=
  match l.slot? with
  | some slot => .slot l.page slot
  | none => .run l.page

variable {page slot : UInt32} {t t' : Target} {l : Locator}

/-- A slot is refused if its number does not fit the field, and only then. -/
theorem slot_eq_error {v : Violation} : Locator.slot page slot = .error v ↔
    2 ^ 30 - 1 < slot.toNat ∧ v = .slotTooWide slot.toNat := by
  unfold Locator.slot
  by_cases fits : slot.toNat ≤ maxSlot
  · rw [if_pos fits]
    exact iff_of_false nofun fun wide => Nat.not_lt.2 fits wide.1
  · rw [if_neg fits, Except.error.injEq, eq_comm]
    exact (and_iff_right (Nat.lt_of_not_le fits)).symm

theorem target_of_pack (h : t.pack = .ok l) : l.target = t := by
  cases t with
  | run page =>
    cases h
    rw [target, slot?_run, page_run]
  | slot page slot =>
    obtain ⟨samePage, sameSlot⟩ := of_slot_eq h
    rw [target, sameSlot, samePage]

/-- Bit 63 is beyond the mark, and beyond every slot that is packed. -/
theorem testBit_of_pack (h : t.pack = .ok l) : l.raw.toNat.testBit 63 = false := by
  cases t with
  | run page =>
    cases h
    rw [run, UInt32.toNat_toUInt64]
    exact testBit_word page (by decide)
  | slot page slot =>
    change Locator.slot page slot = .ok l at h
    unfold Locator.slot at h
    split at h
    · rename_i fits
      cases h
      have above : slot.toNat.testBit 31 = false :=
        Nat.testBit_lt_two_pow (Nat.lt_of_le_of_lt fits (by decide))
      rw [testBit_packed, above, testBit_word page (by decide)]
      rfl
    · cases h

/-! ## Packing again -/

/-- The slot that is read off a word fits its field. -/
theorem slotField_le (raw : UInt64) : (raw >>> 32 &&& 0x3fffffff).toUInt32.toNat ≤ maxSlot := by
  refine Nat.le_of_lt_succ (Nat.lt_pow_two_of_testBit (n := 30) _ fun i high => ?_)
  rw [testBit_slotField, decide_eq_false (Nat.not_lt.2 high), Bool.false_and]

/-- A word with the mark is packed from its page and its slot. -/
theorem pack_target_of_mark (clear : l.raw.toNat.testBit 63 = false)
    (mark : l.raw.toNat.testBit 62 = true) : l.target.pack = .ok l := by
  rw [target, slot?_of_mark mark]
  refine (slot_ok (slotField_le l.raw)).trans (congrArg (fun raw => Except.ok (Locator.mk raw)) ?_)
  refine UInt64.toNat_inj.1 (Nat.eq_of_testBit_eq fun i => ?_)
  rw [testBit_packed, testBit_slotField, testBit_page]
  -- the low word, the slot, the mark, the bit beyond it, and what is beyond the word
  by_cases low : i < 32
  · simp [low, show i ≠ 62 by omega, show ¬ 32 ≤ i by omega]
  by_cases field : i < 62
  · have back : 32 + (i - 32) = i := by omega
    simp [low, back, show i ≠ 62 by omega, show 32 ≤ i by omega, show i < 64 by omega,
      show i - 32 < 30 by omega]
  by_cases here : i = 62
  · simp [here, mark]
  by_cases last : i = 63
  · simp [last, clear]
  · have beyond : l.raw.toNat.testBit i = false :=
      Nat.testBit_lt_two_pow (Nat.lt_of_lt_of_le l.raw.toNat_lt
        (Nat.pow_le_pow_right (by decide) (by omega)))
    simp [beyond, here, show ¬ i < 64 by omega]

/-- A word whose high half is clear is packed from its page. -/
theorem pack_target_of_low (low : l.raw.toNat < 2 ^ 32) : l.target.pack = .ok l := by
  have unmarked : l.raw.toNat.testBit 62 = false :=
    Nat.testBit_lt_two_pow (Nat.lt_trans low (by decide))
  rw [target, slot?_of_clear unmarked]
  refine congrArg (fun raw => Except.ok (Locator.mk raw)) (UInt64.toNat_inj.1 ?_)
  rw [UInt32.toNat_toUInt64, page, UInt64.toNat_toUInt32, Nat.mod_eq_of_lt low]

/-! ## The code -/

/-- Targets are packed without loss, and each in a way of its own. -/
structure Lossless : Prop where
  /-- A slot is refused exactly if its number needs more than 30 bits. -/
  refuse : ∀ page slot v, Locator.slot page slot = .error v ↔
    2 ^ 30 - 1 < slot.toNat ∧ v = .slotTooWide slot.toNat
  slot : ∀ page slot : UInt32, slot.toNat ≤ 2 ^ 30 - 1 →
    ∃ l, Locator.slot page slot = .ok l ∧ l.page = page ∧ l.slot? = some slot
  run : ∀ page, (Locator.run page).page = page ∧ (Locator.run page).slot? = none
  /-- No two targets have the same word. -/
  apart : ∀ (t t' : Target) (l l' : Locator), t.pack = .ok l → t'.pack = .ok l' → l.raw = l'.raw → t = t'
  clear : ∀ (t : Target) (l : Locator), t.pack = .ok l → l.raw.toNat.testBit 63 = false
  /-- A word is packed again from what is read off it. -/
  repack : ∀ raw : UInt64, raw.toNat.testBit 63 = false →
    raw.toNat.testBit 62 = true ∨ raw.toNat >>> 32 = 0 → (target ⟨raw⟩).pack = .ok ⟨raw⟩

theorem lossless : Lossless where
  refuse _ _ _ := slot_eq_error
  slot _ _ fits := ⟨_, slot_ok fits, of_slot_eq (slot_ok fits)⟩
  run page := ⟨page_run page, slot?_run page⟩
  apart t t' l l' packed packed' same := by
    have equal : l = l' := congrArg Locator.mk same
    rw [← target_of_pack packed, ← target_of_pack packed', equal]
  clear _ _ := testBit_of_pack
  repack raw clear outcome := by
    rcases outcome with mark | low
    · exact pack_target_of_mark clear mark
    · rw [Nat.shiftRight_eq_div_pow] at low
      exact pack_target_of_low (Nat.lt_of_div_eq_zero (by decide) low)

end BufferPool.Locator
