import BufferPool.Word

/-!
# Size classes

A request is rounded to the size that is carved out for it: to a step of 16 bytes below 512, from there
to a power of two, and not at all once it fills a chunk. The rounded size decides where the lease
comes from: a slot of a page carved for that size alone (`tiny` and `small`, one list of pages for each
size), a run of whole pages (`normal`), or a private chunk (`huge`).
-/

namespace BufferPool.Size

/-- The smallest slot, and the step between tiny sizes. -/
def step : Nat := 16

/-- Sizes below this are tiny. -/
def tinyLimit : Nat := 512

/-- The number of tiny sizes: 0, 16, 32, … 496. -/
def tinyClasses : Nat := tinyLimit / step

/-- The number of small sizes: the powers of two from 512 up to half a page. -/
def smallClasses (pageSize : Nat) : Nat :=
  Word.trailingZeros pageSize - Word.trailingZeros tinyLimit

/-- The size carved out for a request. -/
def rounded (request chunkSize : Nat) : Nat :=
  if chunkSize ≤ request then request
  else if tinyLimit ≤ request then Word.powerOfTwoAbove request
  else (request + (step - 1)) / step * step

/-- Where leases of a size come from. -/
inductive Class where
  /-- A slot of a page in the list of this tiny size. -/
  | tiny (index : Nat)
  /-- A slot of a page in the list of this small size. -/
  | small (index : Nat)
  /-- A run of whole pages. -/
  | normal
  /-- A private chunk. -/
  | huge
deriving DecidableEq

/-- The class of a rounded size. -/
def Class.ofSize (size pageSize chunkSize : Nat) : Class :=
  if chunkSize < size then .huge
  else if pageSize ≤ size then .normal
  else if size < tinyLimit then .tiny (size / step)
  else .small (Word.trailingZeros size - Word.trailingZeros tinyLimit)

/-- Whether the index of a class is a difference that is not negative: small sizes are numbered from
`tinyLimit` on. -/
def Class.isNumbered (size : Nat) : Class → Bool
  | small _ => Word.trailingZeros tinyLimit ≤ Word.trailingZeros size
  | _ => true

/-- The name of a class, with its index in brackets where it has one. -/
def Class.text : Class → String
  | tiny index => s!"Tiny({index})"
  | small index => s!"Small({index})"
  | normal => "Normal"
  | huge => "Huge"

end BufferPool.Size
