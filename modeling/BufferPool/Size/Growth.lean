import BufferPool.Word

/-!
# Growing and shrinking

How a buffer chooses its next capacity when it has to grow, and when a smaller capacity may keep the
memory that the buffer has.
-/

namespace BufferPool.Size

/-- Up to this capacity buffers grow by doubling, above it by steps of this many bytes. -/
def growthStep : Nat := 4 * 1024 * 1024

/-- The smallest capacity that growth chooses. -/
def growthFloor : Nat := 64

/-- The capacity to grow to so that at least `least` bytes fit, at most `ceiling`. -/
def grown (least ceiling : Nat) : Nat :=
  if least = growthStep then growthStep
  else if growthStep < least then
    let steps := least / growthStep * growthStep
    if ceiling - growthStep < steps then ceiling else steps + growthStep
  else min (Word.powerOfTwoAbove (max least growthFloor)) ceiling

/-- Regions up to this size give up their memory as soon as one step of it is unused. -/
def fineShrinkLimit : Nat := 512

/-- The step of `fineShrinkLimit`. -/
def fineShrinkStep : Nat := 16

/-- Whether a buffer on a region of `regionSize` bytes keeps the region when it shrinks to `capacity`:
more than half of the region stays in use, and of a small region all but one step. -/
def shrinksInPlace (capacity regionSize : Nat) : Bool :=
  regionSize / 2 < capacity &&
    (fineShrinkLimit < regionSize || regionSize - fineShrinkStep < capacity)

end BufferPool.Size
