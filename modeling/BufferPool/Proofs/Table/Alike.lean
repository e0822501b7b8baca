import BufferPool.Proofs.Table.Nodes

/-!
# Tables that do the same

The number that a chunk has is written down in its subpages and never looked at by them, and of the hint of a
subpage only the slot matters that it leads to: without a hint the search may end at the same slot. Two tables
whose subpages differ in these two points only (`SubpageTable.Alike`) are linked in the same way, answer alike,
and stay alike.
-/

namespace BufferPool

open Checked

variable {ν : Nat → Nat}

/-! ## Subpages -/

/-- Two subpages that lease the same slot next, on chunks that are numbered differently. -/
structure Subpage.Alike (ν : Nat → Nat) (s s' : Subpage) : Prop where
  same : ∃ hint, s' = { s with chunk := ν s.chunk, hint := hint }
  next : s'.nextFree? = s.nextFree?

namespace Subpage

variable {s s' : Subpage}

/-- What the next slot depends on. -/
theorem nextFree?_congr (bitmap : s'.bitmap = s.bitmap) (liveWords : s'.liveWords = s.liveWords)
    (slots : s'.slots = s.slots) (hint : s'.hint = s.hint) : s'.nextFree? = s.nextFree? := by
  have search : ∀ words index, s'.searchFrom words index = s.searchFrom words index := by
    intro words
    induction words with
    | nil => exact fun _ => rfl
    | cons word rest ih =>
      intro index
      rw [searchFrom, searchFrom, ih, slots]
  simp only [nextFree?, lowestFree?, search, bitmap, liveWords, hint]

/-- A subpage whose chunk gets another number. -/
theorem alike_renumbered (s : Subpage) : s.Alike ν { s with chunk := ν s.chunk } :=
  ⟨⟨s.hint, rfl⟩, nextFree?_congr rfl rfl rfl rfl⟩

theorem Alike.claim (A : s.Alike ν s') :
    s.claim.Agrees s'.claim fun r r' => r.1.Alike ν r'.1 ∧ r'.2 = r.2 := by
  unfold Subpage.claim
  rw [A.next]
  obtain ⟨hint, rfl⟩ := A.same
  refine .step fun found => ?_
  cases found with
  | none => exact agrees_error
  | some slot =>
    exact .step fun _ => .step fun _ => .step fun available => agrees_pure.2 ⟨alike_renumbered _, rfl⟩

theorem Alike.release (A : s.Alike ν s') (slot : Nat) :
    (s.release slot).Agrees (s'.release slot) (Subpage.Alike ν) := by
  obtain ⟨hint, rfl⟩ := A.same
  exact .step fun _ => .step fun _ => .step fun _ => agrees_pure.2 (alike_renumbered _)

theorem Alike.carve (A : s.Alike ν s') (slotSize : Nat) :
    (s.carve slotSize).Agrees (s'.carve slotSize) (Subpage.Alike ν) := by
  obtain ⟨hint, rfl⟩ := A.same
  exact .step fun _ => agrees_pure.2 (alike_renumbered _)

theorem Alike.retire (A : s.Alike ν s') : s.retire.Alike ν s'.retire := by
  have retired : ∀ u : Subpage, u.retire.nextFree? = u.nextFree? := fun u => nextFree?_congr rfl rfl rfl rfl
  refine ⟨?_, by rw [retired, retired, A.next]⟩
  obtain ⟨hint, rfl⟩ := A.same
  exact ⟨hint, rfl⟩

end Subpage

/-! ## Nodes -/

/-- Two occupants that are both heads, both absent, or subpages that are alike. -/
inductive Occupant.Alike (ν : Nat → Nat) : Occupant → Occupant → Prop where
  | head : Occupant.Alike ν .head .head
  | subpage {s s' : Subpage} (alike : s.Alike ν s') : Occupant.Alike ν (.subpage s) (.subpage s')
  | vacant : Occupant.Alike ν .vacant .vacant

/-- Two nodes with the same links, whose occupants are alike. -/
structure Node.Alike (ν : Nat → Nat) (n n' : Node) : Prop where
  links : n'.links = n.links
  occupant : n.occupant.Alike ν n'.occupant
  generation : n'.generation = n.generation

/-- Two tables whose nodes are alike. -/
structure SubpageTable.Alike (ν : Nat → Nat) (t t' : SubpageTable) : Prop where
  size : t'.nodes.size = t.nodes.size
  node : ∀ i, (t.node i).Alike ν (t'.node i)
  vacated : t'.vacated = t.vacated
  keepLast : t'.keepLast = t.keepLast

namespace SubpageTable.Alike

variable {t t' : SubpageTable} {s s' : Subpage} {o o' : Occupant}

theorem refl (t : SubpageTable) : t.Alike id t where
  size := rfl
  node i := by
    refine ⟨rfl, ?_, rfl⟩
    cases (t.node i).occupant with
    | head => exact .head
    | subpage s => exact .subpage s.alike_renumbered
    | vacant => exact .vacant
  vacated := rfl
  keepLast := rfl

/-- Only the numbers that the subpages have matter. -/
theorem congr {μ : Nat → Nat} (A : t.Alike ν t')
    (same : ∀ i s, (t.node i).occupant = .subpage s → μ s.chunk = ν s.chunk) : t.Alike μ t' where
  size := A.size
  node i := by
    refine ⟨(A.node i).links, ?_, (A.node i).generation⟩
    have numbers := same i
    have alike := (A.node i).occupant
    generalize (t.node i).occupant = o, (t'.node i).occupant = o' at numbers alike
    cases alike with
    | head => exact .head
    | @subpage s _ alike =>
      obtain ⟨hint, e⟩ := alike.same
      exact .subpage ⟨⟨hint, by rw [numbers s rfl, e]⟩, alike.next⟩
    | vacant => exact .vacant
  vacated := A.vacated
  keepLast := A.keepLast

theorem linksAt (A : t.Alike ν t') (i : Nat) : t'.linksAt i = t.linksAt i := (A.node i).links

/-- One node changes alike in both. -/
theorem modify (A : t.Alike ν t') (i : Nat) (f f' : Node → Node)
    (each : ∀ n n' : Node, n.Alike ν n' → (f n).Alike ν (f' n')) :
    SubpageTable.Alike ν { t with nodes := t.nodes.modify i f } { t' with nodes := t'.nodes.modify i f' } where
  size := by rw [Array.size_modify, Array.size_modify, A.size]
  node j := by
    have here := A.node j
    simp only [SubpageTable.node, Array.getElem?_modify] at here ⊢
    split
    · by_cases inside : j < t.nodes.size
      · have inside' : j < t'.nodes.size := A.size.symm ▸ inside
        rw [Array.getElem?_eq_getElem inside, Array.getElem?_eq_getElem inside'] at here ⊢
        exact each _ _ here
      · have outside' : ¬ j < t'.nodes.size := A.size.symm ▸ inside
        rw [Array.getElem?_eq_none (Nat.le_of_not_lt inside), Array.getElem?_eq_none (Nat.le_of_not_lt outside')]
        exact ⟨rfl, .vacant, rfl⟩
    · exact here
  vacated := A.vacated
  keepLast := A.keepLast

theorem withLinks (A : t.Alike ν t') (i : Nat) (l : Option Links) :
    (t.withLinks i l).Alike ν (t'.withLinks i l) :=
  A.modify i _ _ fun _ _ alike => ⟨rfl, alike.occupant, alike.generation⟩

theorem withOccupant (A : t.Alike ν t') (i : Nat) (alike : o.Alike ν o') :
    (t.withOccupant i o).Alike ν (t'.withOccupant i o') :=
  A.modify i _ _ fun _ _ same => ⟨same.links, alike, same.generation⟩

theorem set (A : t.Alike ν t') (id : SubpageId) (alike : s.Alike ν s') :
    (t.set id s).Alike ν (t'.set id s') :=
  A.withOccupant id.node (.subpage alike)

/-- An occupant comes to the same node in both. -/
theorem insert (A : t.Alike ν t') (alike : s.Alike ν s') :
    (t.insert s).1.Alike ν (t'.insert s').1 ∧ (t'.insert s').2 = (t.insert s).2 := by
  unfold SubpageTable.insert place
  rw [A.vacated]
  cases t.vacated with
  | nil =>
    dsimp only
    refine ⟨⟨?_, fun i => ?_, rfl, A.keepLast⟩, by rw [A.size]⟩
    · simp only [Array.size_push, A.size]
    · have here := A.node i
      simp only [SubpageTable.node, Array.getElem?_push, A.size] at here ⊢
      split
      · exact ⟨rfl, .subpage alike, rfl⟩
      · exact here
  | cons index rest =>
    have placed := A.modify index (fun n => { n with links := none, occupant := .subpage s })
      (fun n => { n with links := none, occupant := .subpage s' })
      fun _ _ same => ⟨rfl, .subpage alike, same.generation⟩
    dsimp only
    exact ⟨⟨placed.size, placed.node, rfl, placed.keepLast⟩, by rw [(A.node index).generation]⟩

/-! ## Subpages by name -/

theorem get (A : t.Alike ν t') (id : SubpageId) : (t.get id).Agrees (t'.get id) (Subpage.Alike ν) := by
  have here := A.node id.node
  unfold SubpageTable.get
  rw [here.generation]
  refine .step fun _ => ?_
  have alike := here.occupant
  generalize (t.node id.node).occupant = o, (t'.node id.node).occupant = o' at alike
  cases alike with
  | head => exact agrees_error
  | subpage alike => exact agrees_pure.2 alike
  | vacant => exact agrees_error

/-- The subpages that an identifier names in both are alike, if there are any. -/
theorem get? (A : t.Alike ν t') (id : SubpageId) : Option.Rel (Subpage.Alike ν) (t.get? id) (t'.get? id) := by
  have generation := (A.node id.node).generation
  have alike := (A.node id.node).occupant
  cases named : t.get? id with
  | some s =>
    obtain ⟨subpage, current⟩ := get?_eq_some.1 named
    rw [subpage] at alike
    generalize subpage' : (t'.node id.node).occupant = o' at alike
    cases alike with
    | subpage same =>
      rw [get?_eq_some.2 ⟨subpage', generation.trans current⟩]
      exact .some same
  | none =>
    cases named' : t'.get? id with
    | none => exact .none
    | some s' =>
      obtain ⟨subpage', current⟩ := get?_eq_some.1 named'
      rw [subpage'] at alike
      generalize subpage : (t.node id.node).occupant = o at alike
      cases alike with
      | subpage same =>
        rw [get?_eq_some.2 ⟨subpage, generation.symm.trans current⟩] at named
        cases named

theorem remove (A : t.Alike ν t') (id : SubpageId) :
    (t.remove id).Agrees (t'.remove id) fun r r' => r.1.Alike ν r'.1 := by
  unfold SubpageTable.remove
  rw [A.linksAt]
  refine .step fun _ => ?_
  have alike := (A.node id.node).occupant
  generalize (t.node id.node).occupant = o, (t'.node id.node).occupant = o' at alike
  cases alike with
  | head => exact agrees_error
  | vacant => exact agrees_error
  | subpage alike =>
    have left := A.modify id.node (fun n => { n with occupant := .vacant, generation := n.generation + 1 })
      (fun n => { n with occupant := .vacant, generation := n.generation + 1 })
      fun _ _ same => ⟨same.links, .vacant, congrArg (· + 1) same.generation⟩
    exact agrees_pure.2 ⟨left.size, left.node, congrArg (id.node :: ·) A.vacated, left.keepLast⟩

/-! ## Lists -/

theorem links (A : t.Alike ν t') (id : SubpageId) : t'.links id = t.links id := by
  unfold SubpageTable.links
  rw [A.linksAt]

theorem modifyLinks (A : t.Alike ν t') (id : SubpageId) (f : Links → Links) :
    (t.modifyLinks id f).Agrees (t'.modifyLinks id f) (SubpageTable.Alike ν) := by
  unfold SubpageTable.modifyLinks
  rw [A.size, A.linksAt]
  split
  · exact agrees_ok.2 (A.withLinks ..)
  · exact agrees_error

theorem link (A : t.Alike ν t') (head id : SubpageId) :
    (t.link head id).Agrees (t'.link head id) (SubpageTable.Alike ν) := by
  unfold SubpageTable.link
  rw [A.linksAt, A.links]
  refine .step fun _ => .step fun l => ?_
  exact ((A.withLinks _ _).modifyLinks _ _).bind fun u u' alike => alike.modifyLinks _ _

theorem unlink (A : t.Alike ν t') (id : SubpageId) :
    (t.unlink id).Agrees (t'.unlink id) (SubpageTable.Alike ν) := by
  unfold SubpageTable.unlink
  rw [A.linksAt]
  split
  · exact agrees_error
  · exact ((A.withLinks _ _).modifyLinks _ _).bind fun u u' alike => alike.modifyLinks _ _

theorem front? (A : t.Alike ν t') (head : SubpageId) : t'.front? head = t.front? head := by
  unfold SubpageTable.front?
  rw [A.links]

theorem length (A : t.Alike ν t') (head : SubpageId) : t'.length head = t.length head := by
  have from_eq : ∀ fuel current, t'.lengthFrom head fuel current = t.lengthFrom head fuel current := by
    intro fuel
    induction fuel with
    | zero => exact fun _ => rfl
    | succ fuel ih =>
      intro current
      unfold SubpageTable.lengthFrom
      rw [A.links]
      simp only [ih]
  unfold SubpageTable.length
  rw [A.links, A.size]
  simp only [from_eq]

theorem enlist (A : t.Alike ν t') (head id : SubpageId) (slotSize : Nat) :
    (t.enlist head id slotSize).Agrees (t'.enlist head id slotSize) (SubpageTable.Alike ν) := by
  unfold SubpageTable.enlist
  refine (A.get id).bind fun s s' alike => (alike.carve slotSize).bind fun u u' carved => ?_
  exact (A.set id carved).link head id

theorem lease (A : t.Alike ν t') (id : SubpageId) :
    (t.lease id).Agrees (t'.lease id) fun r r' => r.1.Alike ν r'.1 ∧ r'.2 = r.2 := by
  unfold SubpageTable.lease
  refine (A.get id).bind fun s s' alike => ?_
  have claims := alike.claim
  obtain ⟨hint, rfl⟩ := alike.same
  dsimp only
  split
  · exact .step fun locator => agrees_pure.2 ⟨A, rfl⟩
  · split
    · exact agrees_pure.2 ⟨A, rfl⟩
    · refine claims.bind ?_
      rintro ⟨u, slot⟩ ⟨u', slot'⟩ ⟨claimed, same⟩
      cases same
      have placed := A.set id claimed
      obtain ⟨hint, rfl⟩ := claimed.same
      refine .step fun locator => ?_
      dsimp only
      split
      · exact (placed.unlink id).bind fun v v' alike => agrees_pure.2 ⟨alike, rfl⟩
      · exact agrees_pure.2 ⟨placed, rfl⟩

theorem giveBack (A : t.Alike ν t') (head id : SubpageId) (slot : Nat) :
    (t.giveBack head id slot).Agrees (t'.giveBack head id slot) fun r r' => r.1.Alike ν r'.1 ∧ r'.2 = r.2 := by
  unfold SubpageTable.giveBack
  refine (A.get id).bind fun s s' alike => ?_
  have releases := alike.release slot
  obtain ⟨hint, rfl⟩ := alike.same
  dsimp only
  split
  · exact agrees_pure.2 ⟨A, rfl⟩
  · refine releases.bind fun u u' released => ?_
    have placed := A.set id released
    have free : u'.isFullyFree = u.isFullyFree := by
      obtain ⟨hint, rfl⟩ := released.same
      rfl
    rw [free, placed.links, placed.keepLast]
    split
    · exact (placed.link head id).bind fun v v' alike => agrees_pure.2 ⟨alike, rfl⟩
    · split
      · exact agrees_pure.2 ⟨placed, rfl⟩
      · refine .step fun l => ?_
        split
        · exact agrees_pure.2 ⟨placed, rfl⟩
        · exact ((placed.set id released.retire).unlink id).bind fun v v' alike => agrees_pure.2 ⟨alike, rfl⟩

end SubpageTable.Alike

end BufferPool
