import BufferPool.Subpage.Slots

/-!
# Subpages and their class lists

All subpages of a pool stand in one table of nodes. Those of one slot size that have a free slot form a
circular list around a head, which is a node too; neighbours name each other in both directions. A
subpage enters its list at the front when it is carved and when a slot of a full one is released. It
leaves the list when its last slot is leased, and for good when it is given back.

A vacated node is used again by the next subpage; its generation tells the occupants apart.
-/

namespace BufferPool

/-- The neighbours of a node in its list. -/
structure Links where
  prev : SubpageId
  next : SubpageId
deriving DecidableEq

/-- What a node holds. -/
inductive Occupant where
  | head
  | subpage (s : Subpage)
  | vacant

/-- A node of the table; it has no links while it is in no list. -/
structure Node where
  links : Option Links
  occupant : Occupant
  generation : UInt32

/-- All subpages and list heads. -/
structure SubpageTable where
  nodes : Array Node
  /-- The vacated nodes, the one vacated last in front. -/
  vacated : List Nat
  /-- Whether the last idle subpage of a class is kept. -/
  keepLast : Bool

namespace SubpageTable

/-- A table without nodes. -/
def empty (keepLast : Bool) : SubpageTable := ⟨#[], [], keepLast⟩

/-- The node with a given number. -/
def node (t : SubpageTable) (index : Nat) : Node :=
  t.nodes[index]?.getD ⟨none, .vacant, 0⟩

/-- The links of a node, absent while it is in no list. -/
def linksAt (t : SubpageTable) (index : Nat) : Option Links := (t.node index).links

/-- The table with the links of one node replaced. -/
def withLinks (t : SubpageTable) (index : Nat) (links : Option Links) : SubpageTable :=
  { t with nodes := t.nodes.modify index fun n => { n with links := links } }

/-- The table with the occupant of one node replaced. -/
def withOccupant (t : SubpageTable) (index : Nat) (occupant : Occupant) : SubpageTable :=
  { t with nodes := t.nodes.modify index fun n => { n with occupant := occupant } }

/-- Gives an occupant a node, the one vacated last if there is one. -/
def place (t : SubpageTable) (occupant : Occupant) : SubpageTable × SubpageId :=
  match t.vacated with
  | index :: rest =>
    ({ t with
      nodes := t.nodes.modify index fun n => { n with links := none, occupant := occupant }
      vacated := rest }, ⟨index, (t.node index).generation⟩)
  | [] => ({ t with nodes := t.nodes.push ⟨none, occupant, 0⟩ }, ⟨t.nodes.size, 0⟩)

/-- Adds an empty list. -/
def addHead (t : SubpageTable) : SubpageTable × SubpageId :=
  let (t, id) := t.place .head
  (t.withLinks id.node (some ⟨id, id⟩), id)

/-- Adds a subpage that is in no list. -/
def insert (t : SubpageTable) (s : Subpage) : SubpageTable × SubpageId :=
  t.place (.subpage s)

/-- Takes a subpage out of the table and vacates its node. -/
def remove (t : SubpageTable) (id : SubpageId) : Checked (SubpageTable × Subpage) := do
  .guard (t.linksAt id.node).isNone (.stillLinked id.node)
  match (t.node id.node).occupant with
  | .subpage s =>
    return ({ t with
      nodes := t.nodes.modify id.node fun n =>
        { n with occupant := .vacant, generation := n.generation + 1 }
      vacated := id.node :: t.vacated }, s)
  | _ => .error (.notSubpage id.node)

/-- The subpage of an identifier. -/
def get (t : SubpageTable) (id : SubpageId) : Checked Subpage := do
  .guard ((t.node id.node).generation == id.generation)
    (.staleId (t.node id.node).generation id.generation)
  match (t.node id.node).occupant with
  | .subpage s => return s
  | _ => .error (.notSubpage id.node)

/-- The subpage of an identifier, none once it was removed. -/
def get? (t : SubpageTable) (id : SubpageId) : Option Subpage :=
  match t.nodes[id.node]? with
  | some ⟨_, .subpage s, generation⟩ => if generation = id.generation then some s else none
  | _ => none

/-- The table with a subpage replaced. -/
def set (t : SubpageTable) (id : SubpageId) (s : Subpage) : SubpageTable :=
  t.withOccupant id.node (.subpage s)

/-- The links of a node that is in a list. -/
def links (t : SubpageTable) (id : SubpageId) : Checked Links :=
  match t.linksAt id.node with
  | some links => .ok links
  | none => .error (.nodeNotLinked id.node)

/-- Changes the links of a node if it is linked. -/
def modifyLinks (t : SubpageTable) (id : SubpageId) (f : Links → Links) : Checked SubpageTable :=
  if id.node < t.nodes.size then .ok (t.withLinks id.node ((t.linksAt id.node).map f))
  else .error .indexOutOfBounds

/-- Sets the predecessor of a linked node. -/
def setPrev (t : SubpageTable) (id prev : SubpageId) : Checked SubpageTable :=
  t.modifyLinks id fun l => { l with prev := prev }

/-- Sets the successor of a linked node. -/
def setNext (t : SubpageTable) (id next : SubpageId) : Checked SubpageTable :=
  t.modifyLinks id fun l => { l with next := next }

/-- Puts an unlinked subpage at the front of a list. -/
def link (t : SubpageTable) (head id : SubpageId) : Checked SubpageTable := do
  .guard (t.linksAt id.node).isNone (.alreadyLinked id.node)
  let next := (← t.links head).next
  let t ← (t.withLinks id.node (some ⟨head, next⟩)).setPrev next id
  t.setNext head id

/-- Takes a subpage out of its list. -/
def unlink (t : SubpageTable) (id : SubpageId) : Checked SubpageTable :=
  match t.linksAt id.node with
  | none => .error (.notLinked id.node)
  | some ⟨prev, next⟩ => do
    let t ← (t.withLinks id.node none).setNext prev next
    t.setPrev next prev

/-- Carves a subpage for slots of `slotSize` bytes and puts it at the front of a list. -/
def enlist (t : SubpageTable) (head id : SubpageId) (slotSize : Nat) : Checked SubpageTable := do
  let s ← (← t.get id).carve slotSize
  (t.set id s).link head id

/-- The front of a list. -/
def front? (t : SubpageTable) (head : SubpageId) : Checked (Option SubpageId) := do
  let next := (← t.links head).next
  return if next ≠ head then some next else none

/-- The number of subpages from `current` on up to the head, as far as `fuel` steps reach. -/
def lengthFrom (t : SubpageTable) (head : SubpageId) :
    (fuel : Nat) → (current : SubpageId) → Checked Nat
  | 0, _ => .ok 0
  | fuel + 1, current =>
    if current = head then .ok 0
    else do return (← t.lengthFrom head fuel (← t.links current).next) + 1

/-- The number of subpages in a list, which visits no node twice. -/
def length (t : SubpageTable) (head : SubpageId) : Checked Nat := do
  t.lengthFrom head t.nodes.size (← t.links head).next

/-- Leases a slot of a subpage, none if it has no slot to give. A subpage of size 0 keeps no account and
gives slot 0 to everyone. -/
def lease (t : SubpageTable) (id : SubpageId) : Checked (SubpageTable × Option Locator) := do
  let s ← t.get id
  if s.slotSize = 0 then
    return (t, some (← s.locator 0))
  else if s.available = 0 ∨ !s.active then
    return (t, none)
  else
    let (s, slot) ← s.claim
    let locator ← s.locator slot
    let t := t.set id s
    let t ← if s.available = 0 then t.unlink id else .ok t
    return (t, some locator)

/-- Whether an idle subpage of the list at hand is the only one in it. -/
def isAlone (links : Links) : Bool := links.prev == links.next

/-- Returns a slot of a subpage of the list `head`. The answer is whether the page stays carved: an idle
page is given back unless it is the last of its list and such pages are kept. -/
def giveBack (t : SubpageTable) (head id : SubpageId) (slot : Nat) :
    Checked (SubpageTable × Bool) := do
  let s ← t.get id
  if s.slotSize = 0 then return (t, true)
  let wasFull := s.available == 0
  let s ← s.release slot
  let t := t.set id s
  if wasFull then return (← t.link head id, true)
  if !s.isFullyFree then return (t, true)
  let links ← t.links id
  if t.keepLast && isAlone links then return (t, true)
  let t ← (t.set id s.retire).unlink id
  return (t, false)

end SubpageTable

end BufferPool
