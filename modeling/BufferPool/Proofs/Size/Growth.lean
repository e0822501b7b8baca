import BufferPool.Proofs.Checked
import BufferPool.Proofs.Size

/-!
# The choice of the next capacity

A buffer that grows chooses a capacity between what it has to hold and its ceiling, and a larger one for
more bytes. The choice is made in machine words: `grownInWords` computes it with a check at each step that
could leave them, and no check fails.
-/

namespace BufferPool

namespace Word

theorem powerOfTwoAbove_mono {a b : Nat} (h : a ≤ b) : powerOfTwoAbove a ≤ powerOfTwoAbove b := by
  obtain ⟨k, power⟩ := powerOfTwoAbove_eq b
  rw [power]
  apply powerOfTwoAbove_le
  calc a ≤ b := h
    _ ≤ powerOfTwoAbove b := le_powerOfTwoAbove b
    _ = 2 ^ k := power

theorem powerOfTwoAbove_pos (n : Nat) : 0 < powerOfTwoAbove n := by
  obtain ⟨k, power⟩ := powerOfTwoAbove_eq n
  rw [power]
  exact Nat.two_pow_pos k

end Word

namespace Size

variable {least other ceiling : Nat}

/-- The capacity to grow to, with the sums and products of the choice in machine words. The power of two is
one more than the largest word with fewer bits. -/
def grownInWords (least ceiling : Nat) : Checked Nat := do
  if least = growthStep then return growthStep
  if growthStep < least then
    let steps ← Word.mul (least / growthStep) growthStep
    if ceiling - growthStep < steps then return ceiling
    Word.add steps growthStep
  else
    let power ← Word.add (Word.powerOfTwoAbove (max least growthFloor) - 1) 1
    return min power ceiling

/-- Up to one step of growth the power of two is at most that step. -/
theorem powerOfTwoAbove_le_growthStep (small : least ≤ growthStep) :
    Word.powerOfTwoAbove (max least growthFloor) ≤ growthStep := by
  have power : growthStep = 2 ^ 22 := rfl
  have floor : growthFloor ≤ growthStep := by decide
  rw [power] at small floor ⊢
  exact Word.powerOfTwoAbove_le (Nat.max_le.2 ⟨small, floor⟩)

theorem grown_growthStep : grown growthStep ceiling = growthStep := if_pos rfl

/-- Below one step of growth the capacity is a power of two, as far as the ceiling lets it. -/
theorem grown_of_lt (small : least < growthStep) :
    grown least ceiling = min (Word.powerOfTwoAbove (max least growthFloor)) ceiling := by
  rw [grown, if_neg (Nat.ne_of_lt small), if_neg (Nat.lt_asymm small)]

/-- Above it the capacity goes to the next step, and to the ceiling where that is nearer. -/
theorem grown_of_gt (large : growthStep < least) : grown least ceiling =
    if ceiling - growthStep < least / growthStep * growthStep then ceiling
    else least / growthStep * growthStep + growthStep := by
  rw [grown, if_neg (Nat.ne_of_gt large), if_pos large]

theorem grown_le (h : least ≤ ceiling) : grown least ceiling ≤ ceiling := by
  rcases Nat.lt_trichotomy least growthStep with small | rfl | large
  · rw [grown_of_lt small]
    exact Nat.min_le_right _ _
  · rw [grown_growthStep]
    exact h
  · rw [grown_of_gt large]
    split
    · exact Nat.le_refl _
    · omega

/-- Up to one step of growth a buffer grows to that step at most. -/
theorem grown_le_growthStep (small : least ≤ growthStep) : grown least ceiling ≤ growthStep := by
  rcases Nat.lt_or_eq_of_le small with below | rfl
  · rw [grown_of_lt below]
    exact Nat.le_trans (Nat.min_le_left _ _) (powerOfTwoAbove_le_growthStep small)
  · exact Nat.le_of_eq grown_growthStep

/-- The regimes meet at one step of growth: below it no choice is larger, above it none is smaller. -/
theorem grown_mono (h : least ≤ other) (le : other ≤ ceiling) :
    grown least ceiling ≤ grown other ceiling := by
  rcases Nat.lt_or_ge growthStep least with large | small
  · have steps : least / growthStep * growthStep ≤ other / growthStep * growthStep :=
      Nat.mul_le_mul_right _ (Nat.div_le_div_right h)
    have inside : grown least ceiling ≤ ceiling := grown_le (Nat.le_trans h le)
    rw [grown_of_gt (Nat.lt_of_lt_of_le large h)]
    split
    · exact inside
    · rw [grown_of_gt large, if_neg (by omega)]
      exact Nat.add_le_add_right steps _
  rcases Nat.lt_or_ge other growthStep with below | above
  · have larger : max least growthFloor ≤ max other growthFloor := by omega
    have power := Word.powerOfTwoAbove_mono larger
    rw [grown_of_lt (Nat.lt_of_le_of_lt h below), grown_of_lt below]
    omega
  · calc grown least ceiling ≤ growthStep := grown_le_growthStep small
      _ ≤ other := above
      _ ≤ grown other ceiling := le_grown le

theorem grownInWords_eq (h : least ≤ ceiling) (word : ceiling < Word.bound) :
    grownInWords least ceiling = .ok (grown least ceiling) := by
  unfold grownInWords
  rcases Nat.lt_trichotomy least growthStep with small | rfl | large
  · have power := powerOfTwoAbove_le_growthStep (Nat.le_of_lt small)
    have positive := Word.powerOfTwoAbove_pos (max least growthFloor)
    have step : growthStep < Word.bound := by decide
    have back := Nat.sub_add_cancel positive
    have sum : Word.powerOfTwoAbove (max least growthFloor) - 1 + 1 < Word.bound := by omega
    rw [if_neg (Nat.ne_of_lt small), if_neg (Nat.lt_asymm small), Word.add_ok sum, back, grown_of_lt small]
    rfl
  · rw [if_pos rfl, grown_growthStep]
    rfl
  · have product : least / growthStep * growthStep < Word.bound :=
      Nat.lt_of_le_of_lt (Nat.div_mul_le_self ..) (Nat.lt_of_le_of_lt h word)
    rw [if_neg (Nat.ne_of_gt large), if_pos large, Word.mul_ok product, Checked.ok_bind, grown_of_gt large]
    by_cases near : ceiling - growthStep < least / growthStep * growthStep
    · rw [if_pos near, if_pos near]
      rfl
    · have sum : least / growthStep * growthStep + growthStep < Word.bound := by omega
      rw [if_neg near, if_neg near, Word.add_ok sum]

/-- The capacity chosen for `least` bytes under a ceiling. -/
structure Grows (least ceiling : Nat) : Prop where
  words : grownInWords least ceiling = .ok (grown least ceiling)
  enough : least ≤ grown least ceiling
  inside : grown least ceiling ≤ ceiling
  monotone : ∀ other, least ≤ other → other ≤ ceiling → grown least ceiling ≤ grown other ceiling

theorem grows (h : least ≤ ceiling) (word : ceiling < Word.bound) : Grows least ceiling where
  words := grownInWords_eq h word
  enough := le_grown h
  inside := grown_le h
  monotone _ := grown_mono

end Size

end BufferPool
