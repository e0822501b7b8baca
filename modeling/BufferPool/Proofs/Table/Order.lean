import BufferPool.Proofs.Table.Slots

/-!
# The order of the lists

`SubpageTable.members` reads the list of a head off the links: it follows the successors from the head
until the head comes again. A table whose lists are rings has exactly these lists, and each operation is
described by what it does to them. Only three things happen to a list: a subpage is put in front when it is
carved or when a slot of a full one comes back, it is taken out when its last slot is leased, and it is
taken out when it is given back.
-/

namespace BufferPool

namespace Subpage

/-- Whether every slot is leased. -/
def IsFull (s : Subpage) : Prop := s.slotSize ≠ 0 ∧ s.available = 0

/-- Whether there is one slot left to lease. -/
def HasOneLeft (s : Subpage) : Prop := s.active = true ∧ s.slotSize ≠ 0 ∧ s.available = 1

instance (s : Subpage) : Decidable s.IsFull := inferInstanceAs (Decidable (_ ∧ _))

instance (s : Subpage) : Decidable s.HasOneLeft := inferInstanceAs (Decidable (_ ∧ _ ∧ _))

end Subpage

namespace SubpageTable

variable {t t' : SubpageTable} {head id : SubpageId} {ids : List SubpageId}
  {lists lists' : SubpageId → List SubpageId} {s : Subpage} {slot size : Nat}

/-- The members of a list behind a node, as far as `fuel` steps reach. -/
def membersFrom (t : SubpageTable) (head : SubpageId) : (fuel : Nat) → SubpageId → List SubpageId
  | 0, _ => []
  | fuel + 1, id =>
    match t.next? id with
    | none => []
    | some n => if n = head then [] else n :: t.membersFrom head fuel n

/-- The members of a list in order. -/
def members (t : SubpageTable) (head : SubpageId) : List SubpageId :=
  t.membersFrom head t.nodes.size head

/-- Counting from a node on up to the head ends after so many rounds. -/
inductive Counts (t : SubpageTable) (head : SubpageId) : SubpageId → Nat → Prop
  | done : Counts t head head 0
  | round {cur : SubpageId} {l : Links} {n : Nat} : cur ≠ head → t.links cur = .ok l →
    Counts t head l.next n → Counts t head cur (n + 1)

/-- Every head is one still, and its list is what `lists` says. -/
def Becomes (t t' : SubpageTable) (lists : SubpageId → List SubpageId) : Prop :=
  ∀ h, t.IsHead h → t'.IsHead h ∧ t'.members h = lists h

/-! ## Reading a list -/

theorem membersFrom_eq : ∀ {ids : List SubpageId} {cur : SubpageId} {fuel : Nat},
    (cur :: (ids ++ [head])).IsChain t.Joined → (∀ x ∈ ids, x ≠ head) → ids.length ≤ fuel →
    t.membersFrom head fuel cur = ids
  | [], _, 0, _, _, _ => rfl
  | [], _, _ + 1, chain, _, _ => by
    rw [membersFrom, (List.isChain_cons_cons.1 chain).1.1]
    exact if_pos rfl
  | x :: rest, _, fuel + 1, chain, inner, bound => by
    obtain ⟨joined, later⟩ := List.isChain_cons_cons.1 chain
    have tail := membersFrom_eq later (fun y hy => inner y (List.mem_cons_of_mem _ hy))
      (Nat.le_of_succ_le_succ bound)
    rw [membersFrom, joined.1]
    exact (if_neg (inner x List.mem_cons_self)).trans (congrArg (x :: ·) tail)

theorem counts_of_chain : ∀ {ids : List SubpageId} {cur : SubpageId} {rest : List SubpageId},
    ids ++ [head] = cur :: rest → (cur :: rest).IsChain t.Joined → (∀ x ∈ ids, x ≠ head) →
    t.Counts head cur ids.length
  | [], _, _, e, _, _ => by
    cases e
    exact .done
  | x :: ids, _, _, e, chain, inner => by
    obtain ⟨rfl, rfl⟩ := List.cons.inj e
    obtain ⟨n, rest, en⟩ : ∃ n rest, ids ++ [head] = n :: rest := List.exists_cons_of_ne_nil (by simp)
    change (x :: (ids ++ [head])).IsChain t.Joined at chain
    rw [en] at chain
    obtain ⟨joined, later⟩ := List.isChain_cons_cons.1 chain
    obtain ⟨l, links, rfl⟩ := linked_of_next? joined.1
    exact .round (inner x List.mem_cons_self) (links_ok links)
      (counts_of_chain en later fun y hy => inner y (List.mem_cons_of_mem _ hy))

namespace Listed

theorem members_eq (L : t.Listed lists) (hh : t.IsHead head) : t.members head = lists head :=
  membersFrom_eq (L.ring head hh).chain
    (fun _ hx e => (L.ring head hh).ne_head hx (congrArg SubpageId.node e)) (L.length_le hh)

/-- What is said of the lists is said for the heads only. -/
theorem congr (L : t.Listed lists) (same : ∀ h, t.IsHead h → lists' h = lists h) : t.Listed lists' where
  ring h hh := by
    rw [same h hh]
    exact L.ring h hh
  members h hh := by
    rw [same h hh]
    exact L.members h hh
  apart h h' x hh hh' := by
    rw [same h hh, same h' hh']
    exact L.apart h h' x hh hh'
  linked x hx hl := by
    obtain ⟨h, hh, mem⟩ := L.linked x hx hl
    exact ⟨h, hh, by rw [same h hh]; exact mem⟩
  vacant := L.vacant
  once := L.once

/-- A subpage without links stands in no list. -/
theorem free_of_unlinked (L : t.Listed lists) (unlinked : t.linksAt id.node = none) :
    ∀ h, t.IsHead h → id ∉ lists h := by
  intro h hh mem
  have linked := ((L.ring h hh).linked (List.mem_cons_of_mem _ mem)).1
  rw [isSome_next?, unlinked] at linked
  cases linked

/-- A linked subpage stands in one list, and a subpage without links in none. -/
theorem isSome_links_iff (L : t.Listed lists) (hs : t.get? id = some s) :
    (t.linksAt id.node).isSome = true ↔ ∃ h, t.IsHead h ∧ id ∈ lists h := by
  constructor
  · exact L.linked id (by simp [hs])
  · intro ⟨h, hh, mem⟩
    rw [← isSome_next?]
    exact ((L.ring h hh).linked (List.mem_cons_of_mem _ mem)).1

/-! ## What the operations do to the lists -/

/-- If a subpage is linked, it is at the front, and no other list changes. -/
theorem link_gives (L : t.Listed lists) (hh : t.IsHead head) (hid : (t.get? id).isSome) :
    (t.link head id).Gives fun t' => t.SameNodes t' ∧
      t'.Listed fun h => if h = head then id :: lists h else lists h := by
  intro t' linked
  have unlinked : t.linksAt id.node = none := by
    unfold SubpageTable.link at linked
    cases links : t.linksAt id.node with
    | none => rfl
    | some l =>
      rw [links] at linked
      cases linked
  obtain ⟨same, L'⟩ := (L.link hh hid (L.free_of_unlinked unlinked)).gives t' linked
  refine ⟨same, L'.congr fun h _ => ?_⟩
  rw [Function.update_apply]
  split
  · rename_i here
    rw [here]
  · rfl

/-- If a subpage is unlinked, it is gone from its list, and no other list changes. -/
theorem unlink_gives (L : t.Listed lists) (hid : (t.get? id).isSome) :
    (t.unlink id).Gives fun t' => t.SameNodes t' ∧ t'.Listed fun h => (lists h).erase id := by
  intro t' unlinked
  have linked : (t.linksAt id.node).isSome := by
    unfold SubpageTable.unlink at unlinked
    cases links : t.linksAt id.node with
    | none =>
      rw [links] at unlinked
      cases unlinked
    | some l => rfl
  obtain ⟨head, hh, mem⟩ := L.linked id hid linked
  obtain ⟨same, L'⟩ := (L.unlink hh mem).gives t' unlinked
  refine ⟨same, L'.congr fun h isHead => ?_⟩
  rw [Function.update_apply]
  split
  · rename_i here
    rw [here]
  · rename_i other
    exact List.erase_of_not_mem fun there => other (L.apart h head id ((same.isHead h).1 isHead) hh there mem)

end Listed

/-! ## A new list -/

/-- A vacant node becomes a head that follows itself, and everything else is as before. -/
structure AddsHead (t : SubpageTable) (head : SubpageId) (t' : SubpageTable) : Prop where
  was : (t.node head.node).occupant = .vacant
  mine : t'.node head.node = ⟨some ⟨head, head⟩, .head, head.generation⟩
  other : ∀ j, j ≠ head.node → t'.node j = t.node j

theorem Listed.addsHead (L : t.Listed lists) : t.AddsHead t.addHead.2 t.addHead.1 := by
  have places : t.Places .head (t.place .head).1 t.addHead.2 := places_place L.vacant L.once .head
  have node : ∀ j, t.addHead.1.node j = if t.addHead.2.node = j then
      ⟨some ⟨t.addHead.2, t.addHead.2⟩, .head, t.addHead.2.generation⟩ else t.node j := by
    intro j
    change ((t.place .head).1.withLinks t.addHead.2.node (some ⟨t.addHead.2, t.addHead.2⟩)).node j = _
    rw [withLinks, node_modify (f := fun n => { n with links := some ⟨t.addHead.2, t.addHead.2⟩ }) rfl
      places.inside, places.node, places.node, if_pos rfl]
    by_cases here : t.addHead.2.node = j
    · rw [if_pos here, if_pos here]
    · rw [if_neg here, if_neg here, if_neg (Ne.symm here)]
  exact ⟨places.was, by rw [node, if_pos rfl], fun j ne => by rw [node, if_neg (Ne.symm ne)]⟩

namespace AddsHead

/-- What was named before is on another node. -/
theorem ne_node (A : t.AddsHead head t') {x : SubpageId} (hx : t.Holds x) : x.node ≠ head.node :=
  fun here => hx.occupied (here ▸ A.was)

theorem ne_head (A : t.AddsHead head t') {h : SubpageId} (hh : t.IsHead h) : h ≠ head :=
  fun here => A.ne_node hh.holds (congrArg SubpageId.node here)

theorem isHead_self (A : t.AddsHead head t') : t'.IsHead head :=
  ⟨by rw [A.mine], by rw [A.mine]⟩

theorem isHead_iff (A : t.AddsHead head t') {h : SubpageId} : t'.IsHead h ↔ h = head ∨ t.IsHead h := by
  constructor
  · intro hh
    by_cases here : h.node = head.node
    · exact .inl (hh.holds.eq_of_node A.isHead_self.holds here)
    · exact .inr ⟨A.other _ here ▸ hh.occupant, A.other _ here ▸ hh.generation⟩
  · rintro (rfl | hh)
    · exact A.isHead_self
    · have there := A.ne_node hh.holds
      exact ⟨by rw [A.other _ there]; exact hh.occupant, by rw [A.other _ there]; exact hh.generation⟩

theorem get? (A : t.AddsHead head t') (x : SubpageId) : t'.get? x = t.get? x := by
  ext u
  rw [get?_eq_some, get?_eq_some]
  by_cases here : x.node = head.node
  · rw [here, A.mine, A.was]
    simp
  · rw [A.other _ here]

theorem linksAt (A : t.AddsHead head t') {x : SubpageId} (hx : t.Holds x) :
    t'.linksAt x.node = t.linksAt x.node := by
  rw [SubpageTable.linksAt, A.other _ (A.ne_node hx), SubpageTable.linksAt]

end AddsHead

/-- A list that is added is empty, and no other list changes. -/
theorem Listed.addHead (L : t.Listed lists) :
    t.addHead.1.Listed (Function.update lists t.addHead.2 []) := by
  have A := L.addsHead
  have places : t.Places .head (t.place .head).1 t.addHead.2 := places_place L.vacant L.once .head
  have size : t.addHead.1.nodes.size = (t.place .head).1.nodes.size := size_withLinks ..
  have old : ∀ h, t.addHead.1.IsHead h → ∀ x, x ∈ Function.update lists t.addHead.2 [] h →
      t.IsHead h ∧ x ∈ lists h := by
    intro h hh x mem
    by_cases here : h = t.addHead.2
    · rw [here, Function.update_self] at mem
      cases mem
    · rw [Function.update_of_ne here] at mem
      exact ⟨(A.isHead_iff.1 hh).resolve_left here, mem⟩
  refine ⟨fun h hh => ?_, fun h hh x hx => ?_, fun h h' x hh hh' hx hx' => ?_, fun x hx hl => ?_,
    fun i hi => ?_, places.once⟩
  · rcases A.isHead_iff.1 hh with rfl | before
    · have linked : t.addHead.1.linksAt t.addHead.2.node = some ⟨t.addHead.2, t.addHead.2⟩ := by
        rw [SubpageTable.linksAt, A.mine]
      rw [Function.update_self]
      exact ⟨.cons_cons ⟨by rw [next?, linked]; rfl, by rw [prev?, linked]; rfl⟩ (.singleton _), by simp⟩
    · rw [Function.update_of_ne (A.ne_head before)]
      refine (L.ring h before).frame (fun x hx => ?_) fun x hx => ?_
      · rw [next?, A.linksAt (L.holds before hx), next?]
      · rw [prev?, A.linksAt (L.holds before hx), prev?]
  · rw [A.get?]
    obtain ⟨before, mem⟩ := old h hh x hx
    exact L.members h before x mem
  · obtain ⟨before, mem⟩ := old h hh x hx
    obtain ⟨before', mem'⟩ := old h' hh' x hx'
    exact L.apart h h' x before before' mem mem'
  · rw [A.get?] at hx
    rw [A.linksAt (holds_of_isSome hx)] at hl
    obtain ⟨h, hh, mem⟩ := L.linked x hx hl
    refine ⟨h, A.isHead_iff.2 (.inr hh), ?_⟩
    rwa [Function.update_of_ne (A.ne_head hh)]
  · obtain ⟨before, ne⟩ := places.vacated i hi
    obtain ⟨inside, vacant⟩ := L.vacant i before
    exact ⟨size ▸ Nat.lt_of_lt_of_le inside places.size, by rwa [A.other i ne]⟩

/-! ## Carving, leasing and returning -/

/-- A subpage that is carved is put at the front. -/
theorem Listed.enlist (L : t.Listed lists) (hh : t.IsHead head) (hs : t.get? id = some s) :
    (t.enlist head id size).Gives fun t' => (∀ h, t'.IsHead h ↔ t.IsHead h) ∧
      t'.Listed fun h => if h = head then id :: lists h else lists h := by
  unfold SubpageTable.enlist
  rw [get_ok hs, Checked.ok_bind]
  refine .skip fun s' => ?_
  have replaces := replaces_set hs s'
  refine ((L.set hs s').link_gives ((replaces.heads head).2 hh) (by simp [replaces.get?])).mono ?_
  intro t' ⟨same, L'⟩
  exact ⟨fun h => (same.isHead h).trans (replaces.heads h), L'⟩

theorem claim_gives_available (s : Subpage) : s.claim.Gives fun r =>
    r.1.available + 1 = s.available ∧ r.1.slotSize = s.slotSize := by
  unfold Subpage.claim
  refine .skip fun found => ?_
  cases found with
  | none => exact Checked.gives_error
  | some slot =>
    refine .guard fun _ => .guard fun _ => ?_
    intro r claimed
    by_cases some : 1 ≤ s.available
    · rw [Word.sub_ok some] at claimed
      cases claimed
      exact ⟨Nat.sub_add_cancel some, rfl⟩
    · rw [Word.sub, if_neg some] at claimed
      cases claimed

/-- A subpage is taken out of its list when its last slot is leased. -/
theorem Listed.lease (L : t.Listed lists) (hs : t.get? id = some s) :
    (t.lease id).Gives fun r => (∀ h, r.1.IsHead h ↔ t.IsHead h) ∧
      r.1.Listed fun h => if s.HasOneLeft then (lists h).erase id else lists h := by
  unfold SubpageTable.lease
  rw [get_ok hs, Checked.ok_bind]
  by_cases zero : s.slotSize = 0
  · rw [if_pos zero]
    refine .skip fun _ => Checked.gives_pure.2 ⟨fun _ => Iff.rfl, ?_⟩
    simpa [Subpage.HasOneLeft, zero] using L
  rw [if_neg zero]
  by_cases mute : s.available = 0 ∨ (!s.active) = true
  · rw [if_pos mute]
    refine Checked.gives_pure.2 ⟨fun _ => Iff.rfl, ?_⟩
    have : ¬ s.HasOneLeft := fun ⟨active, _, one⟩ => by simp [active, one] at mute
    simpa [this] using L
  rw [if_neg mute]
  refine (claim_gives_available s).bind fun ⟨s', slot⟩ ⟨available, slotSize⟩ => .skip fun locator => ?_
  have active : s.active = true := by simpa using (not_or.1 mute).2
  have replaces := replaces_set hs s'
  have last : s.HasOneLeft ↔ s'.available = 0 := by
    rw [Subpage.HasOneLeft, and_iff_right active, and_iff_right zero]
    simp only at available
    omega
  by_cases none : s'.available = 0
  · simp only [if_pos none, if_pos (last.2 none)]
    refine ((L.set hs s').unlink_gives (by simp [replaces.get?])).bind ?_
    intro t' ⟨same, L'⟩
    exact Checked.gives_pure.2 ⟨fun h => (same.isHead h).trans (replaces.heads h), L'⟩
  · simp only [if_neg none, if_neg (mt last.1 none)]
    exact Checked.gives_pure.2 ⟨replaces.heads, L.set hs s'⟩

/-- A full subpage is put at the front when a slot comes back. A subpage that is given back is taken out of
its list. -/
theorem Listed.giveBack (L : t.Listed lists) (hh : t.IsHead head) (hs : t.get? id = some s) :
    (t.giveBack head id slot).Gives fun r => (∀ h, r.1.IsHead h ↔ t.IsHead h) ∧
      r.1.Listed fun h => if s.IsFull then if h = head then id :: lists h else lists h
        else if r.2 then lists h else (lists h).erase id := by
  unfold SubpageTable.giveBack
  rw [get_ok hs, Checked.ok_bind]
  by_cases zero : s.slotSize = 0
  · rw [if_pos zero]
    refine Checked.gives_pure.2 ⟨fun _ => Iff.rfl, ?_⟩
    simpa [Subpage.IsFull, zero] using L
  rw [if_neg zero]
  refine .skip fun s' => ?_
  have replaces := replaces_set hs s'
  have L' := L.set hs s'
  by_cases full : s.available = 0
  · have isFull : s.IsFull := ⟨zero, full⟩
    rw [if_pos (by simpa using full)]
    refine (L'.link_gives ((replaces.heads head).2 hh) (by simp [replaces.get?])).bind ?_
    intro t' ⟨same, L''⟩
    simp only [if_pos isFull]
    exact Checked.gives_pure.2 ⟨fun h => (same.isHead h).trans (replaces.heads h), L''⟩
  have notFull : ¬ s.IsFull := fun outcome => full outcome.2
  rw [if_neg (by simpa using full)]
  simp only [if_neg notFull]
  by_cases busy : (!s'.isFullyFree) = true
  · rw [if_pos busy]
    exact Checked.gives_pure.2 ⟨replaces.heads, L'⟩
  rw [if_neg busy]
  refine .skip fun links => ?_
  by_cases kept : ((t.set id s').keepLast && isAlone links) = true
  · rw [if_pos kept]
    exact Checked.gives_pure.2 ⟨replaces.heads, L'⟩
  rw [if_neg kept]
  have named : (t.set id s').get? id = some s' := by rw [replaces.get?, if_pos rfl]
  have retired := replaces_set named s'.retire
  refine ((L'.set named s'.retire).unlink_gives (by simp [retired.get?])).bind ?_
  intro t' ⟨same, L''⟩
  exact Checked.gives_pure.2
    ⟨fun h => (same.isHead h).trans ((retired.heads h).trans (replaces.heads h)), L''⟩

end SubpageTable

end BufferPool
