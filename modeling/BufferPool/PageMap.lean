import BufferPool.Subpage.Slots

/-!
# Pages of a chunk

A pooled chunk is divided into pages, which are leased as runs of neighbours, first fit. The map
records the length of each leased run at its first page, marks the pages in use, counts the free ones,
and remembers the subpage that was once created for a page, so that the page can be carved again.

The search for a run looks at one window of pages after the other. Where a window has a used page, no
window up to the last such page can do, so the search goes on behind it.
-/

namespace BufferPool

/-- The pages of one chunk. -/
structure PageMap where
  pageSize : Nat
  /-- The length of the run that starts at a page, 0 where none starts. -/
  runLengths : Array Nat
  used : Array Bool
  free : Nat
  /-- The subpage created for a page. -/
  carved : Array (Option SubpageId)

namespace PageMap

/-- A map of free pages. -/
def ofPages (count pageSize : Nat) : PageMap where
  pageSize := pageSize
  runLengths := .replicate count 0
  used := .replicate count false
  free := count
  carved := .replicate count none

/-- The number of pages. -/
def count (m : PageMap) : Nat := m.used.size

/-- The number of pages in use. -/
def usedPages (m : PageMap) : Nat := m.count - m.free

/-- Whether no page is in use. -/
def isEmpty (m : PageMap) : Bool := m.free == m.count

/-- Whether a page is in use; pages outside the chunk are not. -/
def isUsed (used : Array Bool) (page : Nat) : Bool := used[page]?.getD false

/-- The offset of the last used page among the `length` pages at `start`. -/
def lastUsed? (used : Array Bool) (start : Nat) : (length : Nat) → Option Nat
  | 0 => none
  | n + 1 => if isUsed used (start + n) then some n else lastUsed? used start n

/-- The first start, from `start` on, of `length` neighbouring free pages. -/
def firstFit? (used : Array Bool) (length start : Nat) : Option Nat :=
  if start + length ≤ used.size then
    match lastUsed? used start length with
    | none => some start
    | some busy => firstFit? used length (start + busy + 1)
  else none
termination_by used.size + 1 - start

/-- The flags with those of the `length` pages at `start` set to `value`. -/
def withRange (used : Array Bool) (start : Nat) (value : Bool) : (length : Nat) → Array Bool
  | 0 => used
  | n + 1 => (withRange used start value n).setIfInBounds (start + n) value

/-- Leases the first run of `length` pages, none if there is no such run. -/
def takeRun? (m : PageMap) (length : Nat) : Option (PageMap × Locator) :=
  if length = 0 ∨ m.free < length then none
  else match firstFit? m.used length 0 with
    | none => none
    | some start =>
      some ({ m with
        used := withRange m.used start true length
        runLengths := m.runLengths.setIfInBounds start length
        free := m.free - length }, .run (.ofNat start))

/-- The length of the run that starts at a page of the chunk. -/
def runLength (m : PageMap) (page : Nat) : Checked Nat :=
  match m.runLengths[page]? with
  | some length => .ok length
  | none => .error .indexOutOfBounds

/-- Whether the `length` pages at `start` are all in use. -/
def allUsed (used : Array Bool) (start length : Nat) : Bool :=
  (List.range length).all fun k => isUsed used (start + k)

/-- Returns the run that starts at a page. -/
def returnRun (m : PageMap) (page : Nat) : Checked PageMap := do
  let length ← m.runLength page
  .guard (0 < length) (.notRunStart page)
  .guard (allUsed m.used page length) (.runPartlyFree page)
  return { m with
    used := withRange m.used page false length
    runLengths := m.runLengths.setIfInBounds page 0
    free := m.free + length }

/-- The position of a page in its chunk, in bytes. -/
def offset (m : PageMap) (page : Nat) : Checked Nat :=
  Word.mul page m.pageSize

/-- The size in bytes of the run that starts at a page. -/
def runSize (m : PageMap) (page : Nat) : Checked Nat := do
  Word.mul (← m.runLength page) m.pageSize

/-- The subpage created for a page of the chunk. -/
def subpageAt (m : PageMap) (page : Nat) : Checked (Option SubpageId) :=
  match m.carved[page]? with
  | some id => .ok id
  | none => .error .indexOutOfBounds

/-- Records the subpage created for a page. -/
def recordSubpage (m : PageMap) (page : Nat) (id : SubpageId) : Checked PageMap :=
  if page < m.carved.size then
    .ok { m with carved := m.carved.setIfInBounds page (some id) }
  else .error .indexOutOfBounds

/-- Every subpage created in the chunk, in the order of the pages. -/
def subpages (m : PageMap) : List SubpageId :=
  m.carved.toList.filterMap id

end PageMap

end BufferPool
