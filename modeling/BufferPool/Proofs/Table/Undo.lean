import BufferPool.Proofs.Slots
import BufferPool.Proofs.Table.Alike
import BufferPool.Proofs.Table.Idle

/-!
# A slot that is leased and given back

A slot that goes back at once is free again, and the hint leads the next lease to it, as whatever was there
before the pair did. A subpage that left its list with its last slot is put where it came from if it was the
first one there. So the pair leaves a table that does the same as before, unless the page is given back.
-/

namespace BufferPool

namespace Subpage

variable {s s' : Subpage}

/-- The marks of all slots are the bitmap. -/
theorem bitmap_ext (size : s'.bitmap.size = s.bitmap.size) (marks : ∀ i, s'.marked i = s.marked i) :
    s'.bitmap = s.bitmap := by
  refine Array.ext size fun q inside' inside => UInt64.toNat_inj.1 (Nat.eq_of_testBit_eq fun k => ?_)
  by_cases bit : k < 64
  · have word : (64 * q + k) / 64 = q := by omega
    have place : (64 * q + k) % 64 = k := by omega
    have same := marks (64 * q + k)
    rw [marked, marked, word, place] at same
    simpa [inside, inside'] using same
  · have beyond : ∀ w : UInt64, w.toNat.testBit k = false := fun w =>
      Nat.testBit_lt_two_pow (Nat.lt_of_lt_of_le w.toNat_lt (Nat.pow_le_pow_right (by omega) (by omega)))
    rw [beyond, beyond]

/-- Marking a free slot and flipping its mark leaves the bitmap as it was. -/
theorem flip_set {slot : Nat} (free : s.marked slot = false) (inside : slot / 64 < s.bitmap.size) :
    (s.bitmap.modify (slot / 64) (· ||| slotBit slot)).modify (slot / 64) (· ^^^ slotBit slot) = s.bitmap := by
  set t : Subpage := { s with bitmap := s.bitmap.modify (slot / 64) (· ||| slotBit slot) } with et
  have size : t.bitmap.size = s.bitmap.size := Array.size_modify
  have same : ({ t with bitmap := t.bitmap.modify (slot / 64) (· ^^^ slotBit slot) } : Subpage).bitmap =
      s.bitmap := by
    refine bitmap_ext (Array.size_modify.trans size) fun i => ?_
    rw [marked_flip (size.symm ▸ inside), marked_set inside]
    by_cases here : i = slot
    · simp [here, free]
    · simp [here]
  exact same

/-- A slot that is claimed and released is the next one again. -/
theorem claim_release_alike (s : Subpage) :
    s.claim.Gives fun r => (r.1.release r.2).Gives fun s' => s.Alike id s' := by
  unfold claim
  cases found : s.nextFree? with
  | error v => exact nofun
  | ok slot? =>
    cases slot? with
    | none => exact nofun
    | some slot =>
      refine .guard fun inside => .guard fun free => ?_
      have fewer : (Word.sub s.available 1).Gives fun n => n + 1 = s.available := fun n e => by
        obtain ⟨some, rfl⟩ := Word.sub_eq_ok.1 e
        exact Nat.sub_add_cancel some
      refine fewer.bind fun available e => Checked.gives_pure.2 (.guard fun _ => .guard fun _ => .guard fun _ =>
        Checked.gives_pure.2 ?_)
      dsimp only
      rw [flip_set (by simpa using free) (of_decide_eq_true inside), e]
      exact ⟨⟨some slot, rfl⟩, found.symm⟩

end Subpage

namespace SubpageTable

variable {headOf : Nat → SubpageId} {t t' t'' : SubpageTable} {head x : SubpageId} {rest : List SubpageId}
  {s s' : Subpage}

/-- Of two subpages that are exchanged one after the other the second one stays. -/
theorem sameNodes_set (holds : t.Holds x) (same : (t.set x s).SameNodes t') :
    (t.set x s').SameNodes (t'.set x s') where
  size := by
    have size := same.size
    simp only [set, size_withOccupant] at size ⊢
    exact size
  occupant i := by
    have size := same.size
    have occupant := same.occupant i
    simp only [set, size_withOccupant] at size occupant ⊢
    rw [occupant_withOccupant holds.lt_size] at occupant ⊢
    rw [occupant_withOccupant (size.symm ▸ holds.lt_size), occupant]
    split <;> rfl
  generation i := by
    have generation := same.generation i
    simp only [set, generation_withOccupant] at generation ⊢
    exact generation
  vacated := same.vacated
  keepLast := same.keepLast

/-- A table in which one subpage was exchanged for one that does the same. -/
theorem alike_of_set (hs : t.get? x = some s) (alike : s.Alike id s') (same : (t.set x s').SameNodes t')
    (links : ∀ i, t'.linksAt i = t.linksAt i) : t.Alike id t' where
  size := same.size.trans (size_withOccupant ..)
  node i := by
    refine ⟨links i, ?_, (same.generation i).trans (generation_withOccupant ..)⟩
    rw [same.occupant, set, occupant_withOccupant (holds_of_get? hs).lt_size]
    split
    · rename_i here
      rw [← here, (get?_eq_some.1 hs).1]
      exact .subpage alike
    · exact ((SubpageTable.Alike.refl t).node i).occupant
  vacated := same.vacated
  keepLast := same.keepLast

/-- The first member of a list, unlinked and linked again, is where it was. -/
theorem unlink_link (ring : t.Ring head (x :: rest)) :
    (t.unlink x).Gives fun t' => t.SameNodes t' ∧ ∀ s, ((t'.set x s).link head x).Gives fun t'' =>
      (t'.set x s).SameNodes t'' ∧ ∀ i, t''.linksAt i = t.linksAt i := by
  obtain ⟨l1, l2, before, p, n, after, -, m⟩ := ring.seam List.mem_cons_self
  obtain ⟨⟨forth, hp⟩, hn, back⟩ := m.joined
  have first : t.Joined head x := (List.isChain_cons_cons.1 ring.chain).1
  cases first.2.symm.trans hp
  have apartP := m.ne_front m.mem_prev
  have apartN := m.ne_back m.mem_next
  have inside : x.node < t.nodes.size := by
    obtain ⟨l, links, -⟩ := linked_of_next? hn
    exact lt_size_of_linked links
  refine (unlink_yields hp hn (by simp [forth]) (by simp [back]) apartP apartN).gives.mono ?_
  rintro t' ⟨same, next, prev⟩
  refine ⟨same, fun s => ?_⟩
  have gone : (t'.set x s).linksAt x.node = none := by
    have none := next x
    rw [if_pos rfl, next?, Option.map_eq_none_iff] at none
    exact (linksAt_withOccupant ..).trans none
  have headNext : (t'.set x s).next? head = some n := by
    rw [next?_set, next, if_neg apartP, if_pos rfl]
  have nextBack : ((t'.set x s).prev? n).isSome := by
    rw [prev?_set, prev, if_neg apartN, if_pos rfl]
    rfl
  have within : x.node < (t'.set x s).nodes.size := by
    rw [set, size_withOccupant, same.size]
    exact inside
  refine (link_yields gone within headNext nextBack).gives.mono ?_
  rintro t'' ⟨same', next', prev'⟩
  refine ⟨same', linksAt_ext (fun y => ?_) fun y => ?_⟩
  · rw [next', next?_set, next]
    split
    · rename_i here
      rw [next?, here, ← next?, forth]
    · split
      · rename_i here
        rw [next?, here, ← next?, hn]
      · rfl
  · rw [prev', prev?_set, prev]
    split
    · rename_i here
      rw [prev?, here, ← prev?, back]
    · split
      · rename_i here
        rw [prev?, here, ← prev?, hp]
      · rfl

/-- A slot of the first subpage of a list goes back at once. If the subpage is idle then, it is the only one of
its list, and such pages are kept. -/
theorem lease_giveBack_alike (W : t.Wf headOf) (hs : t.get? x = some s) (offers : s.Offers)
    (few : s.slots ≤ 2 ^ 30) (front : t.front? (headOf s.slotSize) = .ok (some x))
    (kept : s.Idle → t.keepLast = true ∧ t.Alone headOf x s.slotSize) :
    (t.lease x).Gives fun r => ∀ locator, r.2 = some locator → ∀ slot, locator.slot? = some slot →
      (r.1.giveBack (headOf s.slotSize) x slot.toNat).Gives fun q => q.2 = true ∧ t.Alike id q.1 := by
  have wf := W.subpages x s hs
  unfold lease
  rw [get_ok hs, Checked.ok_bind]
  by_cases zero : s.slotSize = 0
  · rw [if_pos zero]
    refine .skip fun _ => Checked.gives_pure.2 fun _ _ slot _ => ?_
    rw [giveBack, get_ok hs, Checked.ok_bind, if_pos zero]
    exact Checked.gives_pure.2 ⟨rfl, .refl t⟩
  have room := offers.room.resolve_left zero
  rw [if_neg zero, if_neg (by simp [offers.active]; omega)]
  refine ((Subpage.claim_yields wf room).gives.and (Subpage.claim_release_alike s)).bind ?_
  rintro ⟨s1, slot⟩ ⟨⟨wf1, same, lt, fresh, leased, available⟩, undone⟩
  refine Checked.Gives.bind (show (s1.locator slot).Gives fun l => s1.locator slot = .ok l from fun _ e => e) ?_
  intro locator located
  have named : ∀ l, locator.slot? = some l → l.toNat = slot := fun l part => by
    rw [(Locator.of_slot_eq located).2, Option.some.injEq] at part
    rw [← part]
    exact UInt32.toNat_ofNat_of_lt' (Nat.lt_of_lt_of_le lt (Nat.le_trans few (by decide)))
  have sized : s1.slotSize ≠ 0 := same.slotSize.symm ▸ zero
  have served := W.served x s hs offers.active
  obtain ⟨lists, L, members⟩ := W.listed
  have claimed := replaces_set hs s1
  have named1 : (t.set x s1).get? x = some s1 := (claimed.get? x).trans (if_pos rfl)
  have links1 : ∀ i, (t.set x s1).linksAt i = t.linksAt i := fun i => linksAt_withOccupant ..
  have holds := holds_of_get? hs
  by_cases last : s1.available = 0
  · -- The subpage leaves its list, and comes back to where it was.
    simp only [if_pos last]
    have first : (lists (headOf s.slotSize)).head? = some x := by
      rw [(L.ring _ served).front?_eq] at front
      exact Except.ok.inj front
    obtain ⟨rest, split⟩ := List.head?_eq_some_iff.1 first
    have ring := (L.set hs s1).ring _ ((claimed.heads _).2 served)
    rw [split] at ring
    refine (unlink_link ring).bind ?_
    intro t2 ⟨same2, again⟩
    refine Checked.gives_pure.2 fun _ e l part => ?_
    cases e
    rw [named l part, giveBack, get_ok ((same2.get? x).trans named1), Checked.ok_bind, if_neg sized]
    refine undone.bind fun s2 alike => ?_
    rw [if_pos (by simpa using last)]
    refine (again s2).bind ?_
    intro t3 ⟨same3, links⟩
    exact Checked.gives_pure.2 ⟨rfl, alike_of_set hs alike ((sameNodes_set holds same2).trans same3)
      fun i => (links i).trans (links1 i)⟩
  · simp only [if_neg last]
    refine Checked.gives_pure.2 fun _ e l part => ?_
    cases e
    rw [named l part, giveBack, get_ok named1, Checked.ok_bind, if_neg sized]
    refine undone.bind fun s2 alike => ?_
    rw [if_neg (by simpa using last)]
    have links2 : ∀ i, ((t.set x s1).set x s2).linksAt i = t.linksAt i := fun i =>
      (linksAt_withOccupant ..).trans (links1 i)
    have restored : t.Alike id ((t.set x s1).set x s2) :=
      alike_of_set hs alike (sameNodes_set holds (.refl _)) links2
    by_cases busy : s2.isFullyFree = false
    · rw [if_pos (by simp [busy])]
      exact Checked.gives_pure.2 ⟨rfl, restored⟩
    · rw [if_neg (by simpa using busy)]
      obtain ⟨hint, e⟩ := alike.same
      have idle : s.Idle := ⟨zero, wf.isFullyFree_iff.1 (by simpa [e, Subpage.isFullyFree] using busy)⟩
      obtain ⟨keepLast, alone⟩ := kept idle
      obtain ⟨l, links⟩ := W.linked hs offers
      have isAlone := (W.isAlone_iff hs offers links).2 alone
      rw [links_ok ((links2 _).trans links), Checked.ok_bind, if_pos]
      · exact Checked.gives_pure.2 ⟨rfl, restored⟩
      · rw [isAlone, Bool.and_true]
        exact keepLast

end SubpageTable

end BufferPool
