import Mathlib.Tactic.ByContra
import BufferPool.Proofs.Checked
import BufferPool.Subpage.Table

/-!
# Nodes of the subpage table

What a change of links or of an occupant does to every node, and how an identifier is resolved. Later
modules see the table through `get?`, `IsHead`, `next?` and `prev?` only.
-/

namespace BufferPool.SubpageTable

variable {t t' : SubpageTable}

/-! ## One node changed -/

theorem node_modify {i : Nat} {f : Node → Node} (h : t'.nodes = t.nodes.modify i f)
    (hi : i < t.nodes.size) (j : Nat) : t'.node j = if i = j then f (t.node i) else t.node j := by
  rw [node, h, Array.getElem?_modify]
  split
  · rename_i same
    subst same
    simp [node, hi]
  · rfl

@[simp] theorem size_withLinks (i : Nat) (l : Option Links) :
    (t.withLinks i l).nodes.size = t.nodes.size := by
  simp [withLinks]

@[simp] theorem size_withOccupant (i : Nat) (o : Occupant) :
    (t.withOccupant i o).nodes.size = t.nodes.size := by
  simp [withOccupant]

@[simp] theorem occupant_withLinks (i j : Nat) (l : Option Links) :
    ((t.withLinks i l).node j).occupant = (t.node j).occupant := by
  simp only [node, withLinks, Array.getElem?_modify]
  split <;> cases t.nodes[j]? <;> rfl

@[simp] theorem generation_withLinks (i j : Nat) (l : Option Links) :
    ((t.withLinks i l).node j).generation = (t.node j).generation := by
  simp only [node, withLinks, Array.getElem?_modify]
  split <;> cases t.nodes[j]? <;> rfl

theorem linksAt_withLinks {i : Nat} (hi : i < t.nodes.size) (j : Nat) (l : Option Links) :
    (t.withLinks i l).linksAt j = if i = j then l else t.linksAt j := by
  simp only [linksAt, node, withLinks, Array.getElem?_modify]
  split
  · rename_i same
    subst same
    rw [Array.getElem?_eq_getElem hi]
    rfl
  · rfl

@[simp] theorem linksAt_withOccupant (i j : Nat) (o : Occupant) :
    (t.withOccupant i o).linksAt j = t.linksAt j := by
  simp only [linksAt, node, withOccupant, Array.getElem?_modify]
  split <;> cases t.nodes[j]? <;> rfl

@[simp] theorem generation_withOccupant (i j : Nat) (o : Occupant) :
    ((t.withOccupant i o).node j).generation = (t.node j).generation := by
  simp only [node, withOccupant, Array.getElem?_modify]
  split <;> cases t.nodes[j]? <;> rfl

theorem occupant_withOccupant {i : Nat} (hi : i < t.nodes.size) (j : Nat) (o : Occupant) :
    ((t.withOccupant i o).node j).occupant = if i = j then o else (t.node j).occupant := by
  simp only [node, withOccupant, Array.getElem?_modify]
  split
  · rename_i same
    subst same
    rw [Array.getElem?_eq_getElem hi]
    rfl
  · rfl

/-- Nodes outside the table are vacant and in no list. -/
theorem node_of_size_le {i : Nat} (hi : t.nodes.size ≤ i) : t.node i = ⟨none, .vacant, 0⟩ := by
  rw [node, Array.getElem?_eq_none hi]
  rfl

theorem lt_size_of_linked {i : Nat} {l : Links} (h : t.linksAt i = some l) : i < t.nodes.size := by
  by_contra beyond
  rw [linksAt, node_of_size_le (Nat.le_of_not_lt beyond)] at h
  cases h

theorem lt_size_of_occupied {i : Nat} (h : (t.node i).occupant ≠ .vacant) : i < t.nodes.size := by
  by_contra beyond
  rw [node_of_size_le (Nat.le_of_not_lt beyond)] at h
  exact h rfl

/-! ## Identifiers -/

/-- Whether an identifier names the present occupant of its node. -/
structure Holds (t : SubpageTable) (id : SubpageId) : Prop where
  occupied : (t.node id.node).occupant ≠ .vacant
  generation : (t.node id.node).generation = id.generation

/-- Whether an identifier names a list head. -/
structure IsHead (t : SubpageTable) (id : SubpageId) : Prop where
  occupant : (t.node id.node).occupant = .head
  generation : (t.node id.node).generation = id.generation

theorem get?_eq_some {id : SubpageId} {s : Subpage} : t.get? id = some s ↔
    (t.node id.node).occupant = .subpage s ∧ (t.node id.node).generation = id.generation := by
  unfold get? node
  cases t.nodes[id.node]? with
  | none => simp
  | some n =>
    obtain ⟨l, o, g⟩ := n
    cases o <;> simp
    exact And.comm

theorem get_ok {id : SubpageId} {s : Subpage} (h : t.get? id = some s) : t.get id = .ok s := by
  obtain ⟨occupant, generation⟩ := get?_eq_some.1 h
  rw [get, Checked.guard_ok (beq_iff_eq.2 generation), Checked.ok_bind, occupant]
  rfl

theorem get?_of_get {id : SubpageId} {s : Subpage} (found : t.get id = .ok s) : t.get? id = some s := by
  unfold get at found
  by_cases fresh : ((t.node id.node).generation == id.generation) = true
  · rw [Checked.guard_ok fresh, Checked.ok_bind] at found
    split at found
    · rename_i occupant
      cases found
      exact get?_eq_some.2 ⟨occupant, beq_iff_eq.1 fresh⟩
    · cases found
  · rw [Checked.guard, if_neg fresh] at found
    cases found

theorem holds_of_get? {id : SubpageId} {s : Subpage} (h : t.get? id = some s) : t.Holds id where
  occupied := by rw [(get?_eq_some.1 h).1]; nofun
  generation := (get?_eq_some.1 h).2

theorem IsHead.holds {id : SubpageId} (h : t.IsHead id) : t.Holds id where
  occupied := by rw [h.occupant]; nofun
  generation := h.generation

theorem Holds.lt_size {id : SubpageId} (h : t.Holds id) : id.node < t.nodes.size :=
  lt_size_of_occupied h.occupied

/-- A node has one present identifier. -/
theorem Holds.eq_of_node {a b : SubpageId} (ha : t.Holds a) (hb : t.Holds b)
    (h : a.node = b.node) : a = b := by
  have := ha.generation
  rw [h, hb.generation] at this
  obtain ⟨node, generation⟩ := a
  subst h this
  rfl

/-- A head is no subpage. -/
theorem IsHead.get?_eq_none {id : SubpageId} (h : t.IsHead id) : t.get? id = none := by
  cases e : t.get? id with
  | none => rfl
  | some s =>
    have := (get?_eq_some.1 e).1
    rw [h.occupant] at this
    cases this

/-- Two tables with the same occupants. -/
structure SameNodes (t t' : SubpageTable) : Prop where
  size : t'.nodes.size = t.nodes.size
  occupant : ∀ i, (t'.node i).occupant = (t.node i).occupant
  generation : ∀ i, (t'.node i).generation = (t.node i).generation
  vacated : t'.vacated = t.vacated
  keepLast : t'.keepLast = t.keepLast

theorem SameNodes.get? (h : t.SameNodes t') (id : SubpageId) : t'.get? id = t.get? id := by
  ext s
  simp only [get?_eq_some, h.occupant, h.generation]

theorem SameNodes.isHead (h : t.SameNodes t') (id : SubpageId) : t'.IsHead id ↔ t.IsHead id := by
  constructor
  · intro ⟨occupant, generation⟩
    exact ⟨h.occupant _ ▸ occupant, h.generation _ ▸ generation⟩
  · intro ⟨occupant, generation⟩
    exact ⟨(h.occupant _).trans occupant, (h.generation _).trans generation⟩

theorem sameNodes_withLinks (i : Nat) (l : Option Links) : t.SameNodes (t.withLinks i l) :=
  ⟨by simp, by simp, by simp, rfl, rfl⟩

theorem SameNodes.refl (t : SubpageTable) : t.SameNodes t := ⟨rfl, fun _ => rfl, fun _ => rfl, rfl, rfl⟩

theorem SameNodes.trans {t'' : SubpageTable} (h : t.SameNodes t') (h' : t'.SameNodes t'') :
    t.SameNodes t'' where
  size := h'.size.trans h.size
  occupant i := (h'.occupant i).trans (h.occupant i)
  generation i := (h'.generation i).trans (h.generation i)
  vacated := h'.vacated.trans h.vacated
  keepLast := h'.keepLast.trans h.keepLast

/-! ## Neighbours -/

/-- The successor of a node in its list. -/
def next? (t : SubpageTable) (id : SubpageId) : Option SubpageId :=
  (t.linksAt id.node).map Links.next

/-- The predecessor of a node in its list. -/
def prev? (t : SubpageTable) (id : SubpageId) : Option SubpageId :=
  (t.linksAt id.node).map Links.prev

theorem isSome_next? (id : SubpageId) : (t.next? id).isSome = (t.linksAt id.node).isSome := by
  simp [next?]

theorem isSome_prev? (id : SubpageId) : (t.prev? id).isSome = (t.linksAt id.node).isSome := by
  simp [prev?]

/-- A node with a successor or a predecessor is linked. -/
theorem linked_of_prev? {id p : SubpageId} (h : t.prev? id = some p) :
    ∃ l, t.linksAt id.node = some l ∧ l.prev = p :=
  Option.map_eq_some_iff.1 h

theorem linked_of_next? {id n : SubpageId} (h : t.next? id = some n) :
    ∃ l, t.linksAt id.node = some l ∧ l.next = n :=
  Option.map_eq_some_iff.1 h

/-- The neighbours of all nodes are the links. -/
theorem linksAt_ext (next : ∀ y, t'.next? y = t.next? y) (prev : ∀ y, t'.prev? y = t.prev? y) (i : Nat) :
    t'.linksAt i = t.linksAt i := by
  have forth := next ⟨i, 0⟩
  have back := prev ⟨i, 0⟩
  simp only [next?, prev?] at forth back
  cases links : t.linksAt i with
  | none =>
    rw [links, Option.map_none, Option.map_eq_none_iff] at forth
    exact forth
  | some l =>
    rw [links, Option.map_some, Option.map_eq_some_iff] at forth back
    obtain ⟨l', e, sameNext⟩ := forth
    obtain ⟨l'', e', samePrev⟩ := back
    cases e.symm.trans e'
    obtain ⟨p, n⟩ := l'
    rw [e]
    exact congrArg some (Links.mk.injEq .. ▸ ⟨samePrev, sameNext⟩)

theorem next?_set {x : SubpageId} {s : Subpage} (y : SubpageId) : (t.set x s).next? y = t.next? y :=
  congrArg _ (linksAt_withOccupant ..)

theorem prev?_set {x : SubpageId} {s : Subpage} (y : SubpageId) : (t.set x s).prev? y = t.prev? y :=
  congrArg _ (linksAt_withOccupant ..)

theorem modifyLinks_ok {id : SubpageId} (f : Links → Links) (h : id.node < t.nodes.size) :
    t.modifyLinks id f = .ok (t.withLinks id.node ((t.linksAt id.node).map f)) :=
  if_pos h

theorem links_ok {id : SubpageId} {l : Links} (h : t.linksAt id.node = some l) :
    t.links id = .ok l := by
  simp [links, h]

/-- What linking a node behind a head does to the neighbours of every node. -/
theorem link_yields {head id n : SubpageId} (hid : t.linksAt id.node = none)
    (inside : id.node < t.nodes.size) (hn : t.next? head = some n)
    (back : (t.prev? n).isSome) :
    (t.link head id).Yields fun t' => t.SameNodes t' ∧
      (∀ x, t'.next? x = if x.node = head.node then some id
        else if x.node = id.node then some n else t.next? x) ∧
      (∀ x, t'.prev? x = if x.node = n.node then some id
        else if x.node = id.node then some head else t.prev? x) := by
  obtain ⟨lh, headLinks, rfl⟩ := linked_of_next? hn
  obtain ⟨q, hq⟩ := Option.isSome_iff_exists.1 back
  obtain ⟨ln, nextLinks, -⟩ := linked_of_prev? hq
  have apartHead : id.node ≠ head.node := fun e => by rw [e, headLinks] at hid; cases hid
  have apartNext : id.node ≠ lh.next.node := fun e => by rw [e, nextLinks] at hid; cases hid
  have headInside := lt_size_of_linked headLinks
  have nextInside := lt_size_of_linked nextLinks
  unfold link setPrev setNext
  refine .guard (by simp [hid]) (.bind_ok (links_ok headLinks) ?_)
  refine .bind_ok (modifyLinks_ok _ (by simpa using nextInside)) ?_
  rw [modifyLinks_ok _ (by simpa using headInside)]
  refine Checked.yields_ok.2 ⟨?_, fun x => ?_, fun x => ?_⟩
  · exact ((sameNodes_withLinks _ _).trans (sameNodes_withLinks _ _)).trans (sameNodes_withLinks _ _)
  · simp only [next?, linksAt_withLinks, size_withLinks, inside, nextInside, headInside]
    grind
  · simp only [prev?, linksAt_withLinks, size_withLinks, inside, nextInside, headInside]
    grind

/-- What unlinking a node does to the neighbours of every node. -/
theorem unlink_yields {id p n : SubpageId} (hp : t.prev? id = some p) (hn : t.next? id = some n)
    (forth : (t.next? p).isSome) (back : (t.prev? n).isSome) (apartPrev : p.node ≠ id.node)
    (apartNext : n.node ≠ id.node) :
    (t.unlink id).Yields fun t' => t.SameNodes t' ∧
      (∀ x, t'.next? x = if x.node = id.node then none
        else if x.node = p.node then some n else t.next? x) ∧
      (∀ x, t'.prev? x = if x.node = id.node then none
        else if x.node = n.node then some p else t.prev? x) := by
  obtain ⟨l, idLinks, rfl⟩ := linked_of_next? hn
  obtain ⟨l', idLinks', rfl⟩ := linked_of_prev? hp
  rw [idLinks] at idLinks'
  cases idLinks'
  obtain ⟨_, hnext⟩ := Option.isSome_iff_exists.1 forth
  obtain ⟨lp, prevLinks, -⟩ := linked_of_next? hnext
  obtain ⟨_, hprev⟩ := Option.isSome_iff_exists.1 back
  obtain ⟨ln, nextLinks, -⟩ := linked_of_prev? hprev
  have inside := lt_size_of_linked idLinks
  have prevInside := lt_size_of_linked prevLinks
  have nextInside := lt_size_of_linked nextLinks
  unfold unlink setPrev setNext
  rw [idLinks]
  refine .bind_ok (modifyLinks_ok _ (by simpa using prevInside)) ?_
  rw [modifyLinks_ok _ (by simpa using nextInside)]
  refine Checked.yields_ok.2 ⟨?_, fun x => ?_, fun x => ?_⟩
  · exact ((sameNodes_withLinks _ _).trans (sameNodes_withLinks _ _)).trans (sameNodes_withLinks _ _)
  · simp only [next?, linksAt_withLinks, size_withLinks, inside, nextInside, prevInside]
    grind
  · simp only [prev?, linksAt_withLinks, size_withLinks, inside, nextInside, prevInside]
    grind

end BufferPool.SubpageTable
