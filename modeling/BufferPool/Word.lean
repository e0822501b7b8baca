import BufferPool.Violation

/-!
# Machine words

Sizes, positions and counts are natural numbers below 2^64. Sums, differences and products that would
leave that range are violations, except where a rule says that they stop at the end of the range.
-/

namespace BufferPool.Word

/-- The number of machine words. -/
def bound : Nat := 1 <<< 64

/-- The largest machine word. -/
def max : Nat := bound - 1

/-- A sum that fits a machine word. -/
def add (a b : Nat) : Checked Nat :=
  if a + b < bound then .ok (a + b) else .error .additionOverflow

/-- A difference that is not negative. -/
def sub (a b : Nat) : Checked Nat :=
  if b ≤ a then .ok (a - b) else .error .subtractionUnderflow

/-- A product that fits a machine word. -/
def mul (a b : Nat) : Checked Nat :=
  if a * b < bound then .ok (a * b) else .error .multiplicationOverflow

/-- A sum that stops at the largest machine word. -/
def addClamped (a b : Nat) : Nat :=
  min (a + b) max

/-- A product with a power of two of which only the low 64 bits are kept. -/
def shiftLeft (a k : Nat) : Nat :=
  (a <<< k) % bound

/-- Whether a number is a power of two. -/
def isPowerOfTwo (n : Nat) : Bool :=
  n != 0 && 1 <<< n.log2 == n

/-- The least power of two that is at least `n`. -/
def powerOfTwoAbove (n : Nat) : Nat :=
  if n ≤ 1 then 1 else 1 <<< ((n - 1).log2 + 1)

/-- The position of the lowest set bit, 64 if no bit below it is set. -/
def trailingZeros (n : Nat) : Nat :=
  ((List.range 64).find? fun k => n.testBit k).getD 64

theorem add_eq_ok {a b c : Nat} : add a b = .ok c ↔ a + b = c ∧ a + b < bound := by
  grind [add]

theorem sub_eq_ok {a b c : Nat} : sub a b = .ok c ↔ b ≤ a ∧ a - b = c := by
  grind [sub]

theorem mul_eq_ok {a b c : Nat} : mul a b = .ok c ↔ a * b = c ∧ a * b < bound := by
  grind [mul]

end BufferPool.Word
