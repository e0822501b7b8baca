import BufferPool.Locator
import BufferPool.Word

/-!
# Slots of a page

A subpage is a page carved into slots of one size. A bitmap of 64-bit words marks the leased slots, a
counter holds the number of free ones, and a hint remembers the slot released last, which the next
lease takes. Without a hint the lease takes the lowest free slot.

A page can be carved again for another size. Only the words that the present size needs are live; the
others stay clear.

Subpages and list heads live in numbered nodes that are reused. An identifier is the number of a node
together with its generation, which changes whenever the node is vacated: an identifier kept for too
long names no later occupant.
-/

namespace BufferPool

/-- The name of a subpage or of a list head. -/
structure SubpageId where
  node : Nat
  generation : UInt32
deriving DecidableEq

/-- A page carved into slots of equal size. -/
structure Subpage where
  /-- The chunk of the page. -/
  chunk : Nat
  page : UInt32
  /-- The position of the page in its chunk, in bytes. -/
  offset : Nat
  pageSize : Nat
  /-- One bit for a slot, set while it is leased. There are words enough for the smallest size. -/
  bitmap : Array UInt64
  /-- The words that the present size needs. -/
  liveWords : Nat
  slotSize : Nat
  slots : Nat
  available : Nat
  /-- The slot that the next lease takes. -/
  hint : Option Nat
  /-- Cleared when the page is given back; nothing is leased from it then. -/
  active : Bool

namespace Subpage

/-- The number of words for a page carved into the smallest slots. -/
def wordCount (pageSize : Nat) : Nat := max (pageSize / 16 / 64) 1

/-- A page that is not carved yet. -/
def ofPage (chunk : Nat) (page : UInt32) (offset pageSize : Nat) : Subpage where
  chunk := chunk
  page := page
  offset := offset
  pageSize := pageSize
  bitmap := .replicate (wordCount pageSize) 0
  liveWords := 0
  slotSize := 0
  slots := 0
  available := 0
  hint := none
  active := false

/-- Whether a slot is marked as leased. -/
def marked (s : Subpage) (slot : Nat) : Bool :=
  (s.bitmap[slot / 64]?.getD 0).toNat.testBit (slot % 64)

/-- The bit of a slot in its word. -/
def slotBit (slot : Nat) : UInt64 := (1 : UInt64) <<< UInt64.ofNat (slot % 64)

/-- Clears the first `n` words. -/
def clearWords (bitmap : Array UInt64) : (n : Nat) → Array UInt64
  | 0 => bitmap
  | n + 1 => (clearWords bitmap n).setIfInBounds n 0

/-- Carves the page into slots of `slotSize` bytes, all of them free. With size 0 there are no slots to
keep account of. -/
def carve (s : Subpage) (slotSize : Nat) : Checked Subpage := do
  .guard (s.liveWords ≤ s.bitmap.size) .indexOutOfBounds
  let cleared := clearWords s.bitmap s.liveWords
  let slots := s.pageSize / slotSize
  return { s with
    active := true
    slotSize := slotSize
    bitmap := cleared
    slots := slots
    available := slots
    hint := if slotSize = 0 then none else some 0
    liveWords := (slots + 63) / 64 }

/-- The lowest clear bit of a word that has one. -/
def lowestClear? (word : UInt64) : Option Nat :=
  (List.range 64).find? fun k => !word.toNat.testBit k

/-- The lowest free slot as far as the words from number `index` on show. -/
def searchFrom (s : Subpage) : (words : List UInt64) → (index : Nat) → Option Nat
  | [], _ => none
  | word :: rest, index =>
    match lowestClear? word with
    | some bit => if index * 64 + bit < s.slots then some (index * 64 + bit) else none
    | none => s.searchFrom rest (index + 1)

/-- The lowest free slot. -/
def lowestFree? (s : Subpage) : Checked (Option Nat) := do
  .guard (s.liveWords ≤ s.bitmap.size) .indexOutOfBounds
  return s.searchFrom (s.bitmap.extract 0 s.liveWords).toList 0

/-- The slot that the next lease takes: the hint, else the lowest free slot. -/
def nextFree? (s : Subpage) : Checked (Option Nat) :=
  match s.hint with
  | some slot => .ok (some slot)
  | none => s.lowestFree?

/-- The page number in a form for reports. -/
def pageNumber (s : Subpage) : Nat := s.page.toNat

/-- Leases a slot. -/
def claim (s : Subpage) : Checked (Subpage × Nat) := do
  match ← s.nextFree? with
  | none => .error (.noFreeSlot s.pageNumber s.available)
  | some slot =>
    .guard (slot / 64 < s.bitmap.size) .indexOutOfBounds
    .guard (!s.marked slot) (.slotLeased slot)
    let available ← Word.sub s.available 1
    return ({ s with
      hint := none
      bitmap := s.bitmap.modify (slot / 64) (· ||| slotBit slot)
      available := available }, slot)

/-- Returns a slot, which the next lease will take. -/
def release (s : Subpage) (slot : Nat) : Checked Subpage := do
  .guard (slot < s.slots) (.slotOutOfRange slot s.slots)
  .guard (slot / 64 < s.bitmap.size) .indexOutOfBounds
  .guard (s.marked slot) (.doubleFree slot s.pageNumber)
  return { s with
    bitmap := s.bitmap.modify (slot / 64) (· ^^^ slotBit slot)
    hint := some slot
    available := s.available + 1 }

/-- Marks the page as given back. -/
def retire (s : Subpage) : Subpage := { s with active := false }

/-- The locator of a slot. -/
def locator (s : Subpage) (slot : Nat) : Checked Locator :=
  Locator.slot s.page (.ofNat slot)

/-- Whether no slot is leased. -/
def isFullyFree (s : Subpage) : Bool := s.available == s.slots

/-- What a subpage shows of itself. The figures are absent once the page is given back. -/
structure Metric where
  slots : Option Nat
  available : Option Nat
  slotSize : Option Nat
  pageSize : Nat
deriving DecidableEq

/-- The present figures of a subpage. -/
def metric (s : Subpage) : Metric :=
  if s.active then ⟨some s.slots, some s.available, some s.slotSize, s.pageSize⟩
  else ⟨none, none, none, s.pageSize⟩

/-- A subpage in words. -/
def text (s : Subpage) : String :=
  if s.active then
    let leased := s.slots - s.available
    s!"({s.pageNumber}: {leased}/{s.slots}, offset: {s.offset}, length: {s.pageSize}, " ++
      s!"elemSize: {s.slotSize})"
  else s!"({s.pageNumber}: not in use)"

end Subpage

end BufferPool
