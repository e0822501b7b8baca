import BufferPool.Proofs.Locator
import BufferPool.Proofs.Subpage
import BufferPool.Proofs.Table.Lists

/-!
# Slots of listed subpages

A table is well formed (`SubpageTable.Wf`) when each subpage is, and when the list of a head holds
exactly the subpages of its size that offer a slot. Leasing, returning, carving, inserting and removing
keep it so, and each changes the subpage of one identifier only.
-/

namespace BufferPool

namespace Subpage

variable {s s' : Subpage} {slot : Nat}

/-- Whether a subpage has a slot to give. -/
structure Offers (s : Subpage) : Prop where
  active : s.active = true
  room : s.slotSize = 0 ∨ 0 < s.available

theorem not_offers (idle : s.active = false) : ¬ s.Offers := by
  intro offers
  rw [offers.active] at idle
  cases idle

/-- Whether a slot is leased to somebody. Slot 0 of size 0 is leased to everybody. -/
def Lends (s : Subpage) (slot : Nat) : Prop :=
  s.slotSize = 0 ∧ slot = 0 ∨ slot ∈ s.leased

/-- The slots of the largest page are numbered within a locator. -/
theorem slots_lt (wf : s.Wf) (small : s.pageSize ≤ 2 ^ 30) : s.slots < 2 ^ 30 := by
  have most : s.pageSize / s.slotSize ≤ s.pageSize / 16 := slots_le wf.size
  rw [wf.slots_eq]
  omega

theorem locator_ok (h : slot < 2 ^ 30) : ∃ l, s.locator slot = .ok l := by
  have small : (UInt32.ofNat slot).toNat = slot := UInt32.toNat_ofNat_of_lt' (Nat.lt_trans h (by decide))
  refine ⟨_, Locator.slot_ok ?_⟩
  rw [small]
  unfold Locator.maxSlot
  omega

/-- What leasing slot `slot` of a subpage does to it. -/
structure Leases (s : Subpage) (slot : Nat) (s' : Subpage) : Prop where
  wf : s'.Wf
  same : s.SameSlots s'
  kept : ∀ k, s.Lends k → s'.Lends k
  lent : s'.Lends slot
  only : ∀ k, s'.Lends k → s.Lends k ∨ k = slot
  fresh : s.slotSize ≠ 0 → ¬ s.Lends slot
  inside : s.slotSize ≠ 0 → slot < s.slots

theorem leases_of_zero (wf : s.Wf) (zero : s.slotSize = 0) : Leases s 0 s where
  wf := wf
  same := ⟨⟨rfl, rfl, rfl, rfl⟩, rfl, rfl, rfl⟩
  kept _ h := h
  lent := .inl ⟨zero, rfl⟩
  only _ h := .inl h
  fresh ne := absurd zero ne
  inside ne := absurd zero ne

theorem leases_of_claim (wf : s'.Wf) (same : s.SameSlots s') (some : s.slotSize ≠ 0)
    (lt : slot < s.slots) (fresh : slot ∉ s.leased) (leased : s'.leased = insert slot s.leased) :
    Leases s slot s' where
  wf := wf
  same := same
  kept k h := by
    rcases h with ⟨zero, -⟩ | mem
    · exact absurd zero some
    · exact .inr (by rw [leased]; exact Finset.mem_insert_of_mem mem)
  lent := .inr (by rw [leased]; exact Finset.mem_insert_self ..)
  only k h := by
    rcases h with ⟨zero, -⟩ | mem
    · exact absurd (same.slotSize.symm.trans zero) some
    · rw [leased, Finset.mem_insert] at mem
      exact mem.symm.imp .inr fun e => e
  fresh _ h := by
    rcases h with ⟨zero, -⟩ | mem
    · exact some zero
    · exact fresh mem
  inside _ := lt

/-- What returning slot `slot` of a subpage does to it; `stays` is whether it stays carved. -/
structure Regains (s : Subpage) (slot : Nat) (stays : Bool) (s' : Subpage) : Prop where
  wf : s'.Wf
  same : s.SamePage s'
  slotSize : s'.slotSize = s.slotSize
  active : s'.active = stays
  kept : ∀ k, s.Lends k → k ≠ slot ∨ s.slotSize = 0 → s'.Lends k
  only : ∀ k, s'.Lends k → s.Lends k
  back : s.slotSize ≠ 0 → ¬ s'.Lends slot
  idle : stays = false → s'.leased = ∅ ∧ s.slotSize ≠ 0

theorem regains_of_release {stays : Bool} (wf : s'.Wf) (same : s.SamePage s')
    (size : s'.slotSize = s.slotSize) (some : s.slotSize ≠ 0) (active : s'.active = stays)
    (leased : s'.leased = s.leased.erase slot) (idle : stays = false → s'.leased = ∅) :
    Regains s slot stays s' where
  wf := wf
  same := same
  slotSize := size
  active := active
  kept k h other := by
    rcases h with ⟨zero, -⟩ | mem
    · exact absurd zero some
    · exact .inr (by rw [leased]; exact Finset.mem_erase.2 ⟨other.resolve_right some, mem⟩)
  only k h := by
    rcases h with ⟨zero, -⟩ | mem
    · exact absurd (size.symm.trans zero) some
    · exact .inr (Finset.mem_of_mem_erase (leased ▸ mem))
  back _ h := by
    rcases h with ⟨zero, -⟩ | mem
    · exact some (size.symm.trans zero)
    · rw [leased] at mem
      exact Finset.notMem_erase _ _ mem
  idle gone := ⟨idle gone, some⟩

/-- A subpage that is given back is as well formed as before. -/
theorem wf_retire (wf : s.Wf) : s.retire.Wf := ⟨wf.page, wf.words, wf.live, wf.slots_eq, wf.size,
  wf.clear, wf.account, wf.hint⟩

end Subpage

namespace SubpageTable

variable {headOf : Nat → SubpageId} {t t' : SubpageTable} {head id : SubpageId}
  {lists lists' : SubpageId → List SubpageId} {s s' : Subpage} {slot size : Nat}

/-- A table whose lists hold the subpages that offer a slot. -/
structure Wf (headOf : Nat → SubpageId) (t : SubpageTable) : Prop where
  subpages : ∀ x s, t.get? x = some s → s.Wf
  served : ∀ x s, t.get? x = some s → s.active = true → t.IsHead (headOf s.slotSize)
  listed : ∃ lists, t.Listed lists ∧ ∀ h, t.IsHead h → ∀ x, x ∈ lists h ↔
    ∃ s, t.get? x = some s ∧ s.Offers ∧ headOf s.slotSize = h

/-- Everything is as before but for one subpage and its place in the lists. -/
theorem Wf.of_replaces (W : t.Wf headOf)
    (members : ∀ h, t.IsHead h → ∀ x, x ∈ lists h ↔
      ∃ s, t.get? x = some s ∧ s.Offers ∧ headOf s.slotSize = h)
    (r : t.Replaces id (some s') t') (wf : s'.Wf)
    (served : s'.active = true → t.IsHead (headOf s'.slotSize)) (L : t'.Listed lists')
    (others : ∀ h, t.IsHead h → ∀ x, x ≠ id → (x ∈ lists' h ↔ x ∈ lists h))
    (mine : ∀ h, t.IsHead h → (id ∈ lists' h ↔ s'.Offers ∧ headOf s'.slotSize = h)) :
    t'.Wf headOf where
  subpages x u hu := by
    rw [r.get?] at hu
    split at hu
    · cases hu
      exact wf
    · exact W.subpages x u hu
  served x u hu active := by
    rw [r.heads]
    rw [r.get?] at hu
    split at hu
    · cases hu
      exact served active
    · exact W.served x u hu active
  listed := by
    refine ⟨lists', L, fun h hh x => ?_⟩
    rw [r.heads] at hh
    rw [r.get?]
    by_cases e : x = id
    · subst e
      simp [mine h hh]
    · rw [if_neg e, others h hh x e, members h hh x]

/-- A subpage without a slot to give stands in no list. -/
theorem free_of_mute (members : ∀ h, t.IsHead h → ∀ x, x ∈ lists h ↔
    ∃ s, t.get? x = some s ∧ s.Offers ∧ headOf s.slotSize = h) (hs : t.get? id = some s)
    (mute : ¬ s.Offers) : ∀ h, t.IsHead h → id ∉ lists h := by
  intro h hh mem
  obtain ⟨u, hu, offers, -⟩ := (members h hh id).1 mem
  rw [hs] at hu
  cases hu
  exact mute offers

/-- A subpage that offers slots before and after keeps its place. -/
theorem Wf.stays (W : t.Wf headOf) (hs : t.get? id = some s) (offers : s.Offers) (wf : s'.Wf)
    (offers' : s'.Offers) (size : s'.slotSize = s.slotSize) : (t.set id s').Wf headOf := by
  have served := W.served id s hs offers.active
  obtain ⟨lists, L, members⟩ := W.listed
  refine W.of_replaces members (replaces_set hs s') wf (fun _ => ?_) (L.set hs s')
    (fun _ _ _ _ => Iff.rfl) fun h hh => ?_
  · rw [size]
    exact served
  · rw [members h hh, hs, size]
    simp [offers, offers']

/-- A subpage that begins to offer slots enters the list of its size. -/
theorem Wf.enters (W : t.Wf headOf) (hs : t.get? id = some s) (mute : ¬ s.Offers) (wf : s'.Wf)
    (offers' : s'.Offers) (hh : t.IsHead (headOf s'.slotSize)) :
    ((t.set id s').link (headOf s'.slotSize) id).Yields fun t' =>
      t'.Wf headOf ∧ t.Replaces id (some s') t' := by
  obtain ⟨lists, L, members⟩ := W.listed
  have free := free_of_mute members hs mute
  have replaces := replaces_set hs s'
  apply ((L.set hs s').link ((replaces.heads _).2 hh) (by simp [replaces.get?])
    fun h hh => free h ((replaces.heads h).1 hh)).mono
  intro t' ⟨nodes, L'⟩
  have r := replaces.sameNodes nodes
  refine ⟨W.of_replaces members r wf (fun _ => hh) L' (fun h _ x ne => ?_) (fun h hh => ?_), r⟩
  · by_cases e : h = headOf s'.slotSize
    · rw [e, Function.update_self, List.mem_cons, or_iff_right ne]
    · rw [Function.update_of_ne e]
  · by_cases e : h = headOf s'.slotSize
    · rw [e, Function.update_self]
      simp [offers']
    · rw [Function.update_of_ne e]
      exact iff_of_false (free h hh) fun h' => e h'.2.symm

/-- A subpage that ceases to offer slots leaves the list of its size. -/
theorem Wf.leaves (W : t.Wf headOf) (hs : t.get? id = some s) (offers : s.Offers) (wf : s'.Wf)
    (mute : ¬ s'.Offers) (size : s'.slotSize = s.slotSize) :
    ((t.set id s').unlink id).Yields fun t' => t'.Wf headOf ∧ t.Replaces id (some s') t' := by
  have served := W.served id s hs offers.active
  obtain ⟨lists, L, members⟩ := W.listed
  have mine : id ∈ lists (headOf s.slotSize) := (members _ served id).2 ⟨s, hs, offers, rfl⟩
  have replaces := replaces_set hs s'
  apply ((L.set hs s').unlink ((replaces.heads _).2 served) mine).mono
  intro t' ⟨nodes, L'⟩
  have r := replaces.sameNodes nodes
  refine ⟨W.of_replaces members r wf (fun _ => ?_) L' (fun h _ x ne => ?_) (fun h hh => ?_), r⟩
  · rw [size]
    exact served
  · by_cases e : h = headOf s.slotSize
    · rw [e, Function.update_self, List.mem_erase_of_ne ne]
    · rw [Function.update_of_ne e]
  · refine iff_of_false ?_ fun h => mute h.1
    by_cases e : h = headOf s.slotSize
    · rw [e, Function.update_self]
      exact (L.ring _ served).nodup.not_mem_erase
    · rw [Function.update_of_ne e]
      exact fun mem => e (L.apart _ _ _ hh served mem mine)

/-- A subpage that offers slots is linked. -/
theorem Wf.linked (W : t.Wf headOf) (hs : t.get? id = some s) (offers : s.Offers) :
    ∃ l, t.linksAt id.node = some l := by
  have served := W.served id s hs offers.active
  obtain ⟨lists, L, members⟩ := W.listed
  have mine : id ∈ lists (headOf s.slotSize) := (members _ served id).2 ⟨s, hs, offers, rfl⟩
  obtain ⟨_, next⟩ := Option.isSome_iff_exists.1
    ((L.ring _ served).linked (List.mem_cons_of_mem _ mine)).1
  obtain ⟨l, links, -⟩ := linked_of_next? next
  exact ⟨l, links⟩

/-- No other subpage of its list offers a slot. -/
def Alone (t : SubpageTable) (headOf : Nat → SubpageId) (id : SubpageId) (size : Nat) : Prop :=
  ∀ y u, t.get? y = some u → u.Offers → headOf u.slotSize = headOf size → y = id

/-- A change of one subpage leaves the others of its list as they were. -/
theorem Replaces.alone_iff {o : Option Subpage} (r : t.Replaces id o t') :
    t'.Alone headOf id size ↔ t.Alone headOf id size := by
  constructor
  · intro only y u hu offers same
    by_contra ne
    exact ne (only y u (by rw [r.get?, if_neg ne]; exact hu) offers same)
  · intro only y u hu offers same
    by_contra ne
    rw [r.get?, if_neg ne] at hu
    exact ne (only y u hu offers same)

/-- A subpage that offers slots has the same neighbour on both sides when no other one of its list does. -/
theorem Wf.isAlone_iff (W : t.Wf headOf) (hs : t.get? id = some s) (offers : s.Offers) {l : Links}
    (links : t.linksAt id.node = some l) : isAlone l = true ↔ t.Alone headOf id s.slotSize := by
  have served := W.served id s hs offers.active
  obtain ⟨lists, L, members⟩ := W.listed
  have ring := L.ring _ served
  have mine : id ∈ lists (headOf s.slotSize) := (members _ served id).2 ⟨s, hs, offers, rfl⟩
  have alone := ring.alone_iff mine (p := l.prev) (n := l.next) (by rw [prev?, links]; rfl)
    (by rw [next?, links]; rfl)
  rw [isAlone, beq_iff_eq, alone]
  constructor
  · intro only y u hu offers' same
    have mem := (members _ served y).2 ⟨u, hu, offers', same⟩
    rw [only] at mem
    exact List.mem_singleton.1 mem
  · intro only
    refine List.eq_replicate_iff.2 ⟨?_, fun y hy => ?_⟩ |>.trans List.replicate_one
    · have subset : lists (headOf s.slotSize) ⊆ [id] := fun y hy => by
        obtain ⟨u, hu, offers', same⟩ := (members _ served y).1 hy
        exact List.mem_singleton.2 (only y u hu offers' same)
      have most := (ring.nodup.subperm subset).length_le
      have least := List.length_pos_of_mem mine
      simp only [List.length_singleton] at most
      omega
    · obtain ⟨u, hu, offers', same⟩ := (members _ served y).1 hy
      exact only y u hu offers' same

/-- Nothing happens to a subpage that gives slot 0 to everyone. -/
theorem replaces_self (hs : t.get? id = some s) : t.Replaces id (some s) t := by
  obtain ⟨occupant, generation⟩ := get?_eq_some.1 hs
  refine ⟨fun x => ?_, fun _ => Iff.rfl, rfl, generation, fun n => ?_, fun n => ?_⟩
  · split
    · rename_i e
      rw [e, hs]
    · rfl
  · split
    · rename_i here
      rw [here, occupant]
      rfl
    · rfl
  · split
    · rename_i here
      rw [here, generation]
      rfl
    · rfl

/-- The front of a list is its first member. -/
theorem Ring.front?_eq {ids : List SubpageId} (ring : t.Ring head ids) : t.front? head = .ok ids.head? := by
  obtain ⟨n, rest, en, hn⟩ := ring.next_head
  obtain ⟨l, links, rfl⟩ := linked_of_next? hn
  rw [front?, links_ok links, Checked.ok_bind]
  cases ids with
  | nil =>
    have last : l.next = head := (List.cons.inj en).1.symm
    simp [last, pure, Except.pure]
  | cons x tail =>
    have first : l.next = x := (List.cons.inj en).1.symm
    have inner : x ≠ head := fun e => ring.ne_head List.mem_cons_self (by rw [e])
    simp [first, inner, pure, Except.pure]

/-- The front of a list offers a slot of its size; a list without a front has no member. -/
theorem front?_yields (W : t.Wf headOf) (hh : t.IsHead head) :
    (t.front? head).Yields fun front => match front with
      | some id => ∃ s, t.get? id = some s ∧ s.Offers ∧ headOf s.slotSize = head
      | none => ∀ id s, t.get? id = some s → s.Offers → headOf s.slotSize ≠ head := by
  obtain ⟨lists, L, members⟩ := W.listed
  refine ⟨_, (L.ring head hh).front?_eq, ?_⟩
  cases front : lists head with
  | nil =>
    intro id s hs offers e
    have mem : id ∈ lists head := (members head hh id).2 ⟨s, hs, offers, e⟩
    rw [front] at mem
    cases mem
  | cons x tail => exact (members head hh x).1 (front ▸ List.mem_cons_self)

/-- Counting from a member on reaches the head after the members that remain. -/
theorem lengthFrom_eq : ∀ {l rest : List SubpageId} {fuel : Nat} {cur : SubpageId},
    l ++ [head] = cur :: rest → (cur :: rest).IsChain t.Joined → (∀ x ∈ l, x ≠ head) →
    l.length ≤ fuel → t.lengthFrom head fuel cur = .ok l.length
  | [], _, 0, _, _, _, _, _ => rfl
  | [], _, _ + 1, _, e, _, _, _ => by
    cases e
    rw [lengthFrom, if_pos rfl]
    rfl
  | x :: l, rest, fuel + 1, cur, e, chain, ne, bound => by
    rw [List.cons_append, List.cons.injEq] at e
    obtain ⟨rfl, rfl⟩ := e
    obtain ⟨n, after, en⟩ : ∃ n after, l ++ [head] = n :: after := by
      cases l with
      | nil => exact ⟨head, [], rfl⟩
      | cons n rest => exact ⟨n, rest ++ [head], rfl⟩
    rw [en, List.isChain_cons_cons] at chain
    obtain ⟨links, hl, hn⟩ := linked_of_next? chain.1.1
    have rest := lengthFrom_eq en chain.2 (fun y hy => ne y (List.mem_cons_of_mem _ hy))
      (Nat.le_of_succ_le_succ bound)
    rw [lengthFrom, if_neg (ne x List.mem_cons_self), links_ok hl, Checked.ok_bind, hn, rest]
    rfl

/-- A list visits no node twice. -/
theorem Listed.length_le (L : t.Listed lists) (hh : t.IsHead head) : (lists head).length ≤ t.nodes.size := by
  have inside : (lists head).map SubpageId.node ⊆ List.range t.nodes.size := by
    intro i hi
    obtain ⟨x, hx, rfl⟩ := List.mem_map.1 hi
    exact List.mem_range.2 (L.holds hh (List.mem_cons_of_mem _ hx)).lt_size
  have bound := ((List.nodup_cons.1 (L.ring head hh).distinct).2.subperm inside).length_le
  rwa [List.length_map, List.length_range] at bound

/-- The length of a list is the number of its members. -/
theorem Listed.length_eq (L : t.Listed lists) (hh : t.IsHead head) :
    t.length head = .ok (lists head).length := by
  have ring := L.ring head hh
  obtain ⟨n, rest, en, hn⟩ := ring.next_head
  obtain ⟨l, links, rfl⟩ := linked_of_next? hn
  have chain := ring.chain
  rw [en, List.isChain_cons_cons] at chain
  rw [length, links_ok links, Checked.ok_bind]
  exact lengthFrom_eq en chain.2 (fun x hx e => ring.ne_head hx (congrArg SubpageId.node e))
    (L.length_le hh)

/-- The length of a list is the number of subpages of its size that offer a slot. -/
theorem length_yields (W : t.Wf headOf) (hh : t.IsHead head) :
    (t.length head).Yields fun n => ∃ ids : List SubpageId, ids.Nodup ∧ n = ids.length ∧
      ∀ x, x ∈ ids ↔ ∃ s, t.get? x = some s ∧ s.Offers ∧ headOf s.slotSize = head := by
  obtain ⟨lists, L, members⟩ := W.listed
  exact ⟨_, L.length_eq hh, lists head, (L.ring head hh).nodup, rfl, members head hh⟩

/-! ## Leasing and returning slots -/

/-- A subpage that offers a slot leases one that nobody had, if a locator can name it. -/
theorem lease_cases (W : t.Wf headOf) (hs : t.get? id = some s) (offers : s.Offers) :
    ∃ slot s', Subpage.Leases s slot s' ∧ (s.slotSize = 0 → slot = 0) ∧
      match s.locator slot with
      | .error v => t.lease id = .error v
      | .ok locator => (t.lease id).Yields fun r =>
        r.2 = some locator ∧ r.1.Wf headOf ∧ t.Replaces id (some s') r.1 := by
  have wf := W.subpages id s hs
  unfold lease
  rw [get_ok hs, Checked.ok_bind]
  by_cases zero : s.slotSize = 0
  · refine ⟨0, s, Subpage.leases_of_zero wf zero, fun _ => rfl, ?_⟩
    rw [if_pos zero]
    cases s.locator 0 with
    | error v => rfl
    | ok l => exact Checked.yields_pure.2 ⟨rfl, W, replaces_self hs⟩
  · have room := offers.room.resolve_left zero
    obtain ⟨⟨s', slot⟩, claimed, wf', same, lt, fresh, leased, available⟩ :=
      Subpage.claim_yields wf room
    refine ⟨slot, s', Subpage.leases_of_claim wf' same zero lt fresh leased,
      fun none => absurd none zero, ?_⟩
    have named : s'.locator slot = s.locator slot := by rw [Subpage.locator, same.page, Subpage.locator]
    rw [if_neg zero, if_neg (by simp [offers.active]; omega), claimed, Checked.ok_bind]
    dsimp only
    rw [named]
    cases s.locator slot with
    | error v => rfl
    | ok l =>
      by_cases last : s'.available = 0
      · have full : ¬ s'.Offers := by
          intro outcome
          rcases outcome with ⟨-, zero' | some⟩
          · exact zero (same.slotSize.symm.trans zero')
          · omega
        rw [Checked.ok_bind, if_pos last]
        apply (W.leaves hs offers wf' full same.slotSize).bind
        intro t' ⟨W', r⟩
        exact Checked.yields_pure.2 ⟨rfl, W', r⟩
      · have offers' : s'.Offers := ⟨same.active.trans offers.active, .inr (by omega)⟩
        rw [Checked.ok_bind, if_neg last]
        exact Checked.yields_pure.2 ⟨rfl, W.stays hs offers wf' offers' same.slotSize, replaces_set hs s'⟩

/-- A subpage that offers a slot, and has no more slots than a locator can tell apart, leases one that
nobody had. -/
theorem lease_yields (W : t.Wf headOf) (hs : t.get? id = some s) (offers : s.Offers)
    (few : s.slots ≤ 2 ^ 30) :
    (t.lease id).Yields fun r => ∃ slot locator s', r.2 = some locator ∧ slot < 2 ^ 30 ∧
      Locator.slot s.page (.ofNat slot) = .ok locator ∧ r.1.Wf headOf ∧ t.Replaces id (some s') r.1 ∧
      Subpage.Leases s slot s' := by
  obtain ⟨slot, s', leases, first, outcome⟩ := lease_cases W hs offers
  have bound : slot < 2 ^ 30 := by
    by_cases zero : s.slotSize = 0
    · rw [first zero]
      decide
    · exact Nat.lt_of_lt_of_le (leases.inside zero) few
  obtain ⟨l, hl⟩ := Subpage.locator_ok (s := s) bound
  rw [hl] at outcome
  exact outcome.mono fun r ⟨granted, W', r⟩ => ⟨slot, l, s', granted, bound, hl, W', r, leases⟩

/-- Which idle pages are kept: one that is alone in its list, if such pages are kept at all. A page that
has one slot only is not asked about. -/
structure Retention (t : SubpageTable) (headOf : Nat → SubpageId) (id : SubpageId) (s s' : Subpage)
    (stays : Bool) : Prop where
  kept : stays = true → s.slotSize ≠ 0 → s'.leased = ∅ →
    s.slots = 1 ∨ t.keepLast = true ∧ t.Alone headOf id s.slotSize
  retired : stays = false → t.keepLast = true → ¬ t.Alone headOf id s.slotSize

/-- A slot that is leased goes back. A page whose last slot came back may be given up: then it stands
in no list. -/
theorem giveBack_yields (W : t.Wf headOf) (hs : t.get? id = some s) (active : s.active = true)
    (lent : s.Lends slot) :
    (t.giveBack (headOf s.slotSize) id slot).Yields fun r => ∃ s', r.1.Wf headOf ∧
      t.Replaces id (some s') r.1 ∧ Subpage.Regains s slot r.2 s' ∧
      t.Retention headOf id s s' r.2 := by
  have wf := W.subpages id s hs
  have served := W.served id s hs active
  unfold giveBack
  refine .bind_ok (get_ok hs) ?_
  by_cases zero : s.slotSize = 0
  · rw [if_pos zero]
    exact Checked.yields_pure.2 ⟨s, W, replaces_self hs,
      ⟨wf, ⟨rfl, rfl, rfl, rfl⟩, rfl, active, fun k h _ => h, fun k h => h, fun some => absurd zero some,
        nofun⟩, ⟨fun _ some => absurd zero some, nofun⟩⟩
  · rw [if_neg zero]
    have mem : slot ∈ s.leased := lent.resolve_left fun h => zero h.1
    apply (Subpage.release_yields wf mem).bind
    intro s' ⟨wf', same, leased, available⟩
    have offers' : s'.Offers := ⟨same.active.trans active, .inr (by omega)⟩
    have stays : Subpage.Regains s slot true s' :=
      Subpage.regains_of_release wf' same.toSamePage same.slotSize zero (same.active.trans active) leased
        nofun
    by_cases full : s.available = 0
    · have mute : ¬ s.Offers := by
        intro outcome
        rcases outcome with ⟨-, zero' | some⟩
        · exact zero zero'
        · omega
      rw [if_pos (by simpa using full), ← same.slotSize]
      apply (W.enters hs mute wf' offers' (by rw [same.slotSize]; exact served)).bind
      intro t' ⟨W', r⟩
      refine Checked.yields_pure.2 ⟨s', W', r, stays, ⟨fun _ _ none => .inl ?_, nofun⟩⟩
      have count := wf.account
      have one := Finset.card_erase_add_one mem
      rw [← leased, none, Finset.card_empty] at one
      omega
    · rw [if_neg (by simpa using full)]
      have offers : s.Offers := ⟨active, .inr (by omega)⟩
      have keep := W.stays hs offers wf' offers' same.slotSize
      have replaces := replaces_set hs s'
      by_cases busy : s'.isFullyFree = false
      · rw [if_pos (by simp [busy])]
        refine Checked.yields_pure.2 ⟨s', keep, replaces, stays, ⟨fun _ _ none => ?_, nofun⟩⟩
        rw [wf'.isFullyFree_iff.2 none] at busy
        cases busy
      · rw [if_neg (by simpa using busy)]
        have named : (t.set id s').get? id = some s' := by rw [replaces.get?, if_pos rfl]
        obtain ⟨l, links⟩ := keep.linked named offers'
        have alone_iff : isAlone l = true ↔ t.Alone headOf id s.slotSize := by
          rw [keep.isAlone_iff named offers' links, same.slotSize]
          exact replaces.alone_iff
        refine .bind_ok (links_ok links) ?_
        by_cases alone : ((t.set id s').keepLast && isAlone l) = true
        · rw [if_pos alone]
          refine Checked.yields_pure.2 ⟨s', keep, replaces, stays, ⟨fun _ _ _ => .inr ?_, nofun⟩⟩
          rw [Bool.and_eq_true] at alone
          exact ⟨alone.1, alone_iff.1 alone.2⟩
        · rw [if_neg alone]
          have retired := Subpage.wf_retire wf'
          have gone : ¬ s'.retire.Offers := Subpage.not_offers rfl
          apply (keep.leaves named offers' retired gone rfl).bind
          intro t' ⟨W', r⟩
          refine Checked.yields_pure.2 ⟨s'.retire, W', replaces.trans r,
            Subpage.regains_of_release retired ⟨same.chunk, same.page, same.offset, same.pageSize⟩
              same.slotSize zero rfl leased fun _ => wf'.isFullyFree_iff.1 (by simpa using busy),
            ⟨nofun, fun _ keeps only => alone ?_⟩⟩
          rw [Bool.and_eq_true]
          exact ⟨keeps, alone_iff.2 only⟩

/-! ## Carving, inserting and removing -/

/-- A page without a slot to give is carved, and offers slots of the size asked for. -/
theorem enlist_yields (W : t.Wf headOf) (hs : t.get? id = some s) (mute : ¬ s.Offers)
    (hh : t.IsHead (headOf size)) (fits : size = 0 ∨ Size.step ≤ size ∧ size ≤ s.pageSize) :
    (t.enlist (headOf size) id size).Yields fun t' => ∃ s', t'.Wf headOf ∧
      t.Replaces id (some s') t' ∧ s.SamePage s' ∧ s'.Offers ∧ s'.slotSize = size ∧
      s'.leased = ∅ := by
  have wf := W.subpages id s hs
  unfold enlist
  refine .bind_ok (get_ok hs) ((Subpage.carve_yields wf fits).bind ?_)
  intro s' ⟨wf', same, leased, active, carved, available⟩
  have offers : s'.Offers := by
    refine ⟨active, ?_⟩
    rcases fits with zero | ⟨least, most⟩
    · exact .inl (carved.trans zero)
    · have positive : 0 < size := Nat.lt_of_lt_of_le (by decide) least
      right
      rw [available, wf'.slots_eq, carved, same.pageSize]
      exact Nat.div_pos most positive
  subst carved
  apply (W.enters hs mute wf' offers hh).mono
  intro t' ⟨W', r⟩
  exact ⟨s', W', r, same, offers, rfl, leased⟩

/-- A page that was never carved enters the table under an identifier of its own. -/
theorem insert_yields (W : t.Wf headOf) (wf : s.Wf) (idle : s.active = false) :
    t.get? (t.insert s).2 = none ∧ t.Replaces (t.insert s).2 (some s) (t.insert s).1 ∧
      (t.insert s).1.Wf headOf := by
  obtain ⟨lists, L, members⟩ := W.listed
  obtain ⟨fresh, replaces, L'⟩ := L.insert s
  refine ⟨fresh, replaces, W.of_replaces members replaces wf (fun active => ?_) L'
    (fun _ _ _ _ => Iff.rfl) fun h hh => ?_⟩
  · rw [idle] at active
    cases active
  · rw [members h hh, fresh]
    exact iff_of_false nofun fun offers => Subpage.not_offers idle offers.1

/-- A page without a slot to give leaves the table. -/
theorem remove_yields (W : t.Wf headOf) (hs : t.get? id = some s) (mute : ¬ s.Offers) :
    (t.remove id).Yields fun r => t.Replaces id none r.1 ∧ r.1.Wf headOf := by
  obtain ⟨lists, L, members⟩ := W.listed
  have free := free_of_mute members hs mute
  apply (L.remove hs free).mono
  intro ⟨t', s'⟩ outcome
  obtain ⟨-, r, L'⟩ := outcome
  refine ⟨r, fun x u hu => ?_, fun x u hu active => ?_, lists, L', fun h hh x => ?_⟩
  · rw [r.get?] at hu
    split at hu
    · cases hu
    · exact W.subpages x u hu
  · rw [r.heads]
    rw [r.get?] at hu
    split at hu
    · cases hu
    · exact W.served x u hu active
  · rw [r.heads] at hh
    rw [r.get?]
    by_cases e : x = id
    · subst e
      simpa using free h hh
    · rw [if_neg e, members h hh]

end SubpageTable

end BufferPool
