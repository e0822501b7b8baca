import BufferPool.Violation

/-!
# Locators

A locator names a pooled lease inside its chunk. It is packed into one 64-bit word: the page in the
low 32 bits, the slot in the 30 bits above them, and in bit 62 a mark that tells slot 0 of a page from
the run that starts at the page.
-/

namespace BufferPool

/-- The packed name of a lease inside its chunk. -/
structure Locator where
  raw : UInt64
deriving DecidableEq

namespace Locator

/-- The mark of a slot. -/
def slotMark : UInt64 := 0x4000000000000000

/-- The largest slot number that fits. -/
def maxSlot : Nat := (1 <<< 30) - 1

/-- The run of whole pages that starts at `page`. -/
def run (page : UInt32) : Locator :=
  ⟨page.toUInt64⟩

/-- The slot `slot` of `page`. -/
def slot (page slot : UInt32) : Checked Locator :=
  if slot.toNat ≤ maxSlot then .ok ⟨slotMark ||| slot.toUInt64 <<< 32 ||| page.toUInt64⟩
  else .error (.slotTooWide slot.toNat)

/-- The page of the lease. -/
def page (l : Locator) : UInt32 :=
  l.raw.toUInt32

/-- Whether the lease is a slot of its page. -/
def isSlot (l : Locator) : Bool :=
  l.raw &&& slotMark != 0

/-- The slot of the lease, none for a run. -/
def slot? (l : Locator) : Option UInt32 :=
  if l.isSlot then some (l.raw >>> 32 &&& 0x3fffffff).toUInt32 else none

/-- A locator in words. -/
def text (l : Locator) : String :=
  match l.slot? with
  | some slot => s!"page {l.page.toNat}/slot {slot.toNat}"
  | none => s!"page {l.page.toNat}"

end Locator

end BufferPool
