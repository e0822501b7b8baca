import BufferPool.Text.Written

/-!
# Violated invariants

The pool guards its bookkeeping with checks that no well-behaved caller can trip, and a text is cut only
between characters. A `Violation` names the check that failed. It ends the computation: unlike a refusal,
after which the pool goes on as before, there is no state to continue from.
-/

namespace BufferPool

/-- A failed check. -/
inductive Violation where
  /-- A sum of machine words of 2^64 or more. -/
  | additionOverflow
  /-- A difference of machine words below zero. -/
  | subtractionUnderflow
  /-- A product of machine words of 2^64 or more. -/
  | multiplicationOverflow
  /-- A position outside an array. -/
  | indexOutOfBounds
  /-- A slot number too wide for the slot field of a locator. -/
  | slotTooWide (slot : Nat)
  /-- A copy of more bytes than any memory that can be had has. -/
  | copyTooLarge
  /-- An access outside a backing memory. -/
  | outsideMemory (position length size : Nat)
  /-- A page that starts no leased run. -/
  | notRunStart (page : Nat)
  /-- A recorded run that covers a free page. -/
  | runPartlyFree (page : Nat)
  /-- A new chunk without room for the run it was created for. -/
  | chunkTooSmall (pages : Nat)
  /-- A page that counts free slots where every slot is marked. -/
  | noFreeSlot (page available : Nat)
  /-- A slot chosen for a lease that is leased already. -/
  | slotLeased (slot : Nat)
  /-- A slot beyond the last one of its page. -/
  | slotOutOfRange (slot slots : Nat)
  /-- A slot released that is not leased. -/
  | doubleFree (slot page : Nat)
  /-- A page that has no free slot although it was just carved. -/
  | freshPageFull (page : Nat)
  /-- A slot locator on a page that was never carved into slots. -/
  | pageNotCarved (page slot : Nat)
  /-- A listed page of another element size than its list. -/
  | elementSizeDiffers (found expected : Nat)
  /-- An identifier of an earlier occupant of its node. -/
  | staleId (current given : UInt32)
  /-- A node that holds no subpage. -/
  | notSubpage (node : Nat)
  /-- A node without links where links are needed. -/
  | nodeNotLinked (node : Nat)
  /-- A subpage linked a second time. -/
  | alreadyLinked (node : Nat)
  /-- A subpage unlinked a second time. -/
  | notLinked (node : Nat)
  /-- A subpage removed that is still in a list. -/
  | stillLinked (node : Nat)
  /-- A size that is served from no class list. -/
  | noClassList (size : Nat)
  /-- A chunk that the arena does not hold. -/
  | foreignChunk (chunk : Nat)
  /-- A pooled lease on a private chunk. -/
  | privateChunk
  /-- A private lease on a pooled chunk. -/
  | pooledChunk
  /-- A second lease for a bound core. -/
  | alreadyBound
  /-- A lease outside its chunk, or longer than its region. -/
  | leaseDoesNotFit (offset length maxLength size : Nat)
  /-- An access through a core without a lease. -/
  | usedAfterRelease
  /-- A reference taken on a core without references. -/
  | retainedAfterRelease
  /-- A reference returned to a core without references. -/
  | releasedAfterRelease
  /-- A move of a lease that was given back. -/
  | movedAfterRelease
  /-- A bound core parked for reuse. -/
  | parkedWhileBound
  /-- A part of a text that starts inside a character, whose first byte is at `first`. -/
  | startsInside (position : Nat) (c : Char) (first : Nat)
  /-- A part of a text that ends inside a character, whose first byte is at `first`. -/
  | endsInside (position : Nat) (c : Char) (first : Nat)
deriving DecidableEq

namespace Violation

/-- The wording of the form shared by checked equalities: the two sides on lines of their own. -/
def unequal (title left right : String) : String :=
  "assertion \x60left == right\x60 failed" ++ title ++ "\n  left: " ++ left ++ "\n right: " ++ right

/-- The wording shared by cuts inside a character, in which the character stands between apostrophes. -/
def cutInside (edge : String) (position : Nat) (c : Char) (first : Nat) : String :=
  let shown := String.ofList (Text.quotedChar c)
  s!"{edge} byte index {position} is not a char boundary; " ++
    s!"it is inside '{shown}' (bytes {first}..{first + c.utf8Size} of string)"

/-- What is reported when a check fails. -/
def message : Violation → String
  | additionOverflow => "attempt to add with overflow"
  | subtractionUnderflow => "attempt to subtract with overflow"
  | multiplicationOverflow => "attempt to multiply with overflow"
  | indexOutOfBounds => "index out of bounds"
  | slotTooWide slot => s!"bitmap index {slot} does not fit in a locator"
  | copyTooLarge => "capacity overflow"
  | outsideMemory position length size =>
    s!"range {position}+{length} outside backing memory of {size} bytes"
  | notRunStart page => s!"page {page} does not start a leased run"
  | runPartlyFree page => s!"run at page {page} is partially free"
  | chunkTooSmall pages => s!"empty chunk cannot hold a run of {pages} pages"
  | noFreeSlot page available =>
    s!"subpage {page} reports {available} free slots but its bitmap is full"
  | slotLeased slot => s!"slot {slot} already leased"
  | slotOutOfRange slot slots => s!"slot {slot} out of range for subpage with {slots} elements"
  | doubleFree slot page => s!"double free of slot {slot} in subpage {page}"
  | freshPageFull page => s!"freshly initialized subpage at page {page} has no free slot"
  | pageNotCarved page slot =>
    s!"locator page {page}/slot {slot} points at page {page} which has no subpage"
  | elementSizeDiffers found expected => unequal "" (toString found) (toString expected)
  | staleId current given =>
    unequal ": stale subpage id" (toString current.toNat) (toString given.toNat)
  | notSubpage node => s!"node {node} is not a subpage"
  | nodeNotLinked node => s!"node {node} is not linked"
  | alreadyLinked node => s!"subpage {node} is already linked"
  | notLinked node => s!"subpage {node} is not linked"
  | stillLinked node => s!"removing subpage {node} while it is still linked"
  | noClassList size => s!"size {size} has no subpage list"
  | foreignChunk chunk => s!"chunk {chunk} does not belong to this arena"
  | privateChunk => "pooled lease on an unpooled chunk"
  | pooledChunk => "unpooled lease on a pooled chunk"
  | alreadyBound => "buffer is already bound"
  | leaseDoesNotFit offset length maxLength size =>
    s!"lease {offset}+{length}/{maxLength} does not fit chunk of {size} bytes"
  | usedAfterRelease => "buffer used after it was released"
  | retainedAfterRelease => "retain on a released buffer"
  | releasedAfterRelease => "release on a released buffer"
  | movedAfterRelease => "reallocating a released buffer"
  | parkedWhileBound => "recycling a bound buffer"
  | startsInside position c first => cutInside "start" position c first
  | endsInside position c first => cutInside "end" position c first

end Violation

/-- A computation that ends early when a check fails. -/
abbrev Checked := Except Violation

/-- Goes on only if a check holds. -/
def Checked.guard (holds : Bool) (v : Violation) : Checked Unit :=
  if holds then .ok () else .error v

end BufferPool
