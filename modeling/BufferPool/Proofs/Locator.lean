import Mathlib.Data.Nat.Bitwise
import BufferPool.Locator

/-!
# Reading locators back

The page and the slot that a locator was packed from are read back from it, and a run is told from a
slot. Everything is reduced to bits of the packed word.
-/

namespace BufferPool.Locator

theorem slot_ok {page slot : UInt32} (h : slot.toNat ≤ maxSlot) :
    Locator.slot page slot = .ok ⟨slotMark ||| slot.toUInt64 <<< 32 ||| page.toUInt64⟩ :=
  if_pos h

@[simp] theorem page_run (page : UInt32) : (run page).page = page := by
  simp [run, Locator.page]

/-- The bits of a 32-bit number end at bit 32. -/
theorem testBit_word (n : UInt32) {i : Nat} (h : 32 ≤ i) : n.toNat.testBit i = false :=
  Nat.testBit_lt_two_pow (Nat.lt_of_lt_of_le n.toNat_lt (Nat.pow_le_pow_right (by omega) h))

/-! ## Bits of the fields -/

/-- The bits of the packed word of a slot. -/
theorem testBit_packed (page slot : UInt32) (i : Nat) :
    (slotMark ||| slot.toUInt64 <<< 32 ||| page.toUInt64).toNat.testBit i =
      (decide (i = 62) || (decide (32 ≤ i ∧ i < 64) && slot.toNat.testBit (i - 32)) ||
        page.toNat.testBit i) := by
  have mark : slotMark.toNat = 2 ^ 62 := rfl
  have shift : (32 : UInt64).toNat % 64 = 32 := rfl
  simp only [UInt64.toNat_or, UInt64.toNat_shiftLeft, UInt32.toNat_toUInt64, Nat.testBit_or, mark,
    shift, Nat.testBit_mod_two_pow, Nat.testBit_shiftLeft, Nat.testBit_two_pow]
  congr 2
  · simp [eq_comm]
  · by_cases low : 32 ≤ i <;> by_cases high : i < 64 <;> simp [low, high]

/-- The mark is bit 62. -/
theorem isSlot_iff (l : Locator) : l.isSlot = true ↔ l.raw.toNat.testBit 62 = true := by
  have mark : slotMark.toNat = 2 ^ 62 := rfl
  rw [isSlot, bne_iff_ne, Ne, ← UInt64.toNat_inj, UInt64.toNat_and, mark, Nat.and_two_pow]
  cases l.raw.toNat.testBit 62 <;> simp

/-- The page is the low word. -/
theorem testBit_page (l : Locator) (i : Nat) :
    l.page.toNat.testBit i = (decide (i < 32) && l.raw.toNat.testBit i) := by
  rw [page, UInt64.toNat_toUInt32, Nat.testBit_mod_two_pow]

/-- The slot is the low 30 bits of the high word. -/
theorem testBit_slotField (raw : UInt64) (i : Nat) :
    (raw >>> 32 &&& 0x3fffffff).toUInt32.toNat.testBit i =
      (decide (i < 30) && raw.toNat.testBit (32 + i)) := by
  have shift : (32 : UInt64).toNat % 64 = 32 := rfl
  have mask : (0x3fffffff : UInt64).toNat = 2 ^ 30 - 1 := rfl
  rw [UInt64.toNat_toUInt32, UInt64.toNat_and, UInt64.toNat_shiftRight, shift, mask,
    Nat.and_two_pow_sub_one_eq_mod, Nat.testBit_mod_two_pow, Nat.testBit_mod_two_pow,
    Nat.testBit_shiftRight]
  by_cases low : i < 30
  · simp [low, show i < 32 by omega]
  · simp [low]

/-- The slot of a locator in which the mark is set. -/
theorem slot?_of_mark {l : Locator} (mark : l.raw.toNat.testBit 62 = true) :
    l.slot? = some (l.raw >>> 32 &&& 0x3fffffff).toUInt32 :=
  if_pos (l.isSlot_iff.2 mark)

/-- Without the mark a locator names no slot. -/
theorem slot?_of_clear {l : Locator} (clear : l.raw.toNat.testBit 62 = false) : l.slot? = none :=
  if_neg fun marked => Bool.false_ne_true (clear.symm.trans (l.isSlot_iff.1 marked))

/-! ## Fields read back -/

/-- The parts that a slot locator was made from. -/
theorem of_slot_eq {page slot : UInt32} {l : Locator} (h : Locator.slot page slot = .ok l) :
    l.page = page ∧ l.slot? = some slot := by
  unfold Locator.slot at h
  split at h
  · rename_i fits
    cases h
    constructor
    · refine UInt32.toNat_inj.1 (Nat.eq_of_testBit_eq fun i => ?_)
      rw [testBit_page, testBit_packed]
      by_cases low : i < 32
      · simp [low, show ¬ 32 ≤ i by omega, show i ≠ 62 by omega]
      · simp [low, testBit_word page (Nat.le_of_not_lt low)]
    · rw [slot?_of_mark (by rw [testBit_packed]; rfl)]
      refine congrArg some (UInt32.toNat_inj.1 (Nat.eq_of_testBit_eq fun i => ?_))
      rw [testBit_slotField, testBit_packed]
      by_cases low : i < 30
      · simp [low, show 32 + i ≠ 62 by omega, show 32 + i < 64 by omega,
          testBit_word page (show 32 ≤ 32 + i by omega)]
      · have above : slot.toNat.testBit i = false := by
          refine Nat.testBit_lt_two_pow (Nat.lt_of_lt_of_le ?_ (Nat.pow_le_pow_right (by omega)
            (Nat.le_of_not_lt low)))
          unfold maxSlot at fits
          omega
        simp [low, above]
  · cases h

@[simp] theorem slot?_run (page : UInt32) : (run page).slot? = none := by
  refine slot?_of_clear ?_
  rw [run, UInt32.toNat_toUInt64]
  exact testBit_word page (by decide)

end BufferPool.Locator
