import BufferPool.Arena.Basic

/-!
# What the arena shows of itself
-/

namespace BufferPool.Arena

/-- The pages in use in a row of chunks. -/
def usedPagesIn : (chunks : List PooledChunk) → Checked Nat
  | [] => .ok 0
  | c :: rest => do return (← Word.sub c.pages.count c.pages.free) + (← usedPagesIn rest)

/-- The pages in use in all chunks. -/
def usedPages (a : Arena) : Checked Nat :=
  usedPagesIn a.chunks.toList

/-- The number of subpages that are not given back, among those named. -/
def countActive (table : SubpageTable) : (ids : List SubpageId) → Checked Nat
  | [] => .ok 0
  | id :: rest => do
    let s ← table.get id
    return (← countActive table rest) + s.active.toNat

/-- The number of subpages that are not given back. -/
def activeSubpages (a : Arena) : Checked Nat :=
  countActive a.table a.subpages

/-- The number of listed subpages for requests of `capacity` bytes, 0 where there is no list. -/
def freeSubpages (a : Arena) (capacity : Nat) : Checked Nat := do
  match ← a.listHead? (a.rounded capacity) with
  | some head => a.table.length head
  | none => return 0

/-- The figures of a subpage, absent once it was given back or its chunk destroyed. -/
def metric (a : Arena) (id : SubpageId) : Subpage.Metric :=
  match a.table.get? id with
  | some s => { s.metric with pageSize := a.config.pageSize }
  | none => ⟨none, none, none, a.config.pageSize⟩

/-- A subpage in words. -/
def subpageText (a : Arena) (id : SubpageId) : Checked String := do
  match a.table.get? id with
  | some s =>
    .guard (!s.active || s.available ≤ s.slots) .subtractionUnderflow
    return s.text
  | none => return "(destroyed)"

end BufferPool.Arena
