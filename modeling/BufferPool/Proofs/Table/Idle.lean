import BufferPool.Proofs.Table.Order

/-!
# Idle subpages come last

A subpage of which no slot is leased is the last one in its list (`SubpageTable.IdleLast`): it was alone
when it became idle, for otherwise it had been given back, and what enters a list later enters in front. So
an idle subpage is the first of its list only where it is alone.
-/

namespace BufferPool

/-- Whether no slot is leased. Leases of slots without a size are not counted. -/
def Subpage.Idle (s : Subpage) : Prop := s.slotSize ≠ 0 ∧ s.leased = ∅

namespace SubpageTable

variable {headOf : Nat → SubpageId} {t t' : SubpageTable} {head id : SubpageId}
  {lists lists' : SubpageId → List SubpageId} {s s' : Subpage} {slot size : Nat}

/-- Idle subpages are the last ones of their lists. -/
def IdleLast (t : SubpageTable) : Prop :=
  ∀ h, t.IsHead h → ∀ x ∈ t.members h, ∀ s, t.get? x = some s → s.Idle → (t.members h).getLast? = some x

theorem Listed.idleLast_iff (L : t.Listed lists) : t.IdleLast ↔ ∀ h, t.IsHead h → ∀ x ∈ lists h, ∀ s,
    t.get? x = some s → s.Idle → (lists h).getLast? = some x := by
  refine forall_congr' fun h => forall_congr' fun hh => ?_
  rw [L.members_eq hh]

theorem getLast?_erase {ids : List SubpageId} {x : SubpageId} (last : ids.getLast? = some x) (ne : id ≠ x) :
    (ids.erase id).getLast? = some x := by
  obtain ⟨front, rfl⟩ := List.getLast?_eq_some_iff.1 last
  by_cases mem : id ∈ front
  · rw [List.erase_append_left _ mem, List.getLast?_concat]
  · rw [List.erase_append_right _ mem, List.erase_of_not_mem (by simpa using ne), List.getLast?_concat]

/-- Where one subpage changes, enters a list in front or leaves it, the others that are idle stay last. -/
theorem IdleLast.replaces {o : Option Subpage} (I : t.IdleLast) (L : t.Listed lists)
    (r : t.Replaces id o t') (L' : t'.Listed lists')
    (moves : ∀ h, t.IsHead h →
      lists' h = lists h ∨ lists' h = id :: lists h ∨ lists' h = (lists h).erase id)
    (mine : ∀ s', o = some s' → s'.Idle → ∀ h, t.IsHead h → id ∈ lists' h →
      (lists' h).getLast? = some id) : t'.IdleLast := by
  refine L'.idleLast_iff.2 fun h hh x mem u hu idle => ?_
  have before := (r.heads h).1 hh
  rw [r.get?] at hu
  by_cases here : x = id
  · subst here
    rw [if_pos rfl] at hu
    exact mine u hu idle h before mem
  rw [if_neg here] at hu
  have last : x ∈ lists h → (lists h).getLast? = some x := fun old =>
    L.idleLast_iff.1 I h before x old u hu idle
  rcases moves h before with same | enters | leaves
  · rw [same] at mem ⊢
    exact last mem
  · rw [enters] at mem ⊢
    rw [List.getLast?_cons, last ((List.mem_cons.1 mem).resolve_left here)]
    rfl
  · rw [leaves] at mem ⊢
    exact getLast?_erase (last (List.mem_of_mem_erase mem)) (Ne.symm here)

/-- The first subpage of a list, if it is idle, is the only one. -/
theorem IdleLast.alone (I : t.IdleLast) (W : t.Wf headOf) (hh : t.IsHead head)
    (front : t.front? head = .ok (some id)) (hs : t.get? id = some s) (idle : s.Idle) :
    t.Alone headOf id s.slotSize := by
  obtain ⟨lists, L, members⟩ := W.listed
  have first : (lists head).head? = some id := by
    rw [(L.ring head hh).front?_eq] at front
    exact Except.ok.inj front
  have mem : id ∈ lists head := List.mem_of_mem_head? first
  have last := L.idleLast_iff.1 I head hh id mem s hs idle
  obtain ⟨u, hu, -, here⟩ := (members head hh id).1 mem
  cases hs.symm.trans hu
  have only : lists head = [id] := by
    obtain ⟨rest, split⟩ := List.head?_eq_some_iff.1 first
    have once := (L.ring head hh).nodup
    rw [split] at last once ⊢
    cases rest with
    | nil => rfl
    | cons y rest =>
      rw [List.getLast?_cons_cons] at last
      exact absurd (List.mem_of_getLast? last) (List.nodup_cons.1 once).1
  intro y v hv offers same
  have inner := (members head hh y).2 ⟨v, hv, offers, same.trans here⟩
  rw [only] at inner
  exact List.mem_singleton.1 inner

/-! ## What keeps idle subpages last -/

theorem not_idle_of_leases (h : Subpage.Leases s slot s') : ¬ s'.Idle := by
  rintro ⟨some, none⟩
  rcases h.lent with ⟨zero, -⟩ | mem
  · exact some zero
  · rw [none] at mem
    exact Finset.notMem_empty _ mem

/-- A subpage with two slots or more that were all leased keeps a lease when one comes back. -/
theorem not_idle_of_full {stays : Bool} (wf : s.Wf) (full : s.IsFull) (two : 2 ≤ s.slots)
    (h : Subpage.Regains s slot stays s') : ¬ s'.Idle := by
  rintro ⟨-, none⟩
  have account := wf.account
  rw [full.2] at account
  obtain ⟨k, mem, ne⟩ := Finset.exists_mem_ne (by omega : 1 < s.leased.card) slot
  rcases h.kept k (.inr mem) (.inl ne) with ⟨zero, -⟩ | mem'
  · exact full.1 (h.slotSize.symm.trans zero)
  · rw [none] at mem'
    exact Finset.notMem_empty _ mem'

theorem lease_keeps_idleLast (W : t.Wf headOf) (hs : t.get? id = some s) (offers : s.Offers)
    (few : s.slots ≤ 2 ^ 30) : (t.lease id).Gives fun r => t.IdleLast → r.1.IdleLast := by
  obtain ⟨lists, L, members⟩ := W.listed
  refine ((lease_yields W hs offers few).gives.and (L.lease hs)).mono ?_
  rintro r ⟨⟨_, _, s', -, -, -, -, replaces, leases⟩, -, L'⟩ I
  refine I.replaces L replaces L' (fun h _ => ?_) fun u eq idle => ?_
  · split
    · exact .inr (.inr rfl)
    · exact .inl rfl
  · cases eq
    exact absurd idle (not_idle_of_leases leases)

/-- An idle subpage that is not given back is alone. -/
theorem giveBack_keeps_idleLast (W : t.Wf headOf) (hs : t.get? id = some s) (active : s.active = true)
    (lent : s.Lends slot) (two : s.slotSize ≠ 0 → 2 ≤ s.slots) :
    (t.giveBack (headOf s.slotSize) id slot).Gives fun r => t.IdleLast → r.1.IdleLast := by
  have isHead := W.served id s hs active
  obtain ⟨lists, L, members⟩ := W.listed
  refine ((giveBack_yields W hs active lent).gives.and (L.giveBack isHead hs)).mono ?_
  rintro ⟨_, stays⟩ ⟨⟨s', -, replaces, regains, retention⟩, -, L'⟩ I
  refine I.replaces L replaces L' (fun h _ => ?_) fun u eq idle h hh mem => ?_
  · split
    · split
      · exact .inr (.inl rfl)
      · exact .inl rfl
    · split
      · exact .inl rfl
      · exact .inr (.inr rfl)
  · cases eq
    have some : s.slotSize ≠ 0 := regains.slotSize ▸ idle.1
    have notFull : ¬ s.IsFull := fun full =>
      not_idle_of_full (W.subpages id s hs) full (two some) regains idle
    rw [if_neg notFull] at mem ⊢
    cases stays with
    | false =>
      exact absurd mem (L.ring h hh).nodup.not_mem_erase
    | true =>
      have alone := ((retention.kept rfl some idle.2).resolve_left (Nat.ne_of_gt (two some))).2
      obtain ⟨u, hu, -, here⟩ := (members h hh id).1 mem
      cases hs.symm.trans hu
      obtain ⟨y, last⟩ := Option.isSome_iff_exists.1 (List.getLast?_isSome.2 (List.ne_nil_of_mem mem))
      obtain ⟨v, hv, offers, same⟩ := (members h hh y).1 (List.mem_of_getLast? last)
      exact last.trans (congrArg Option.some (alone y v hv offers (same.trans here.symm)))

/-- A subpage that is carved is alone if no other one offers a slot. -/
theorem enlist_keeps_idleLast (W : t.Wf headOf) (hs : t.get? id = some s) (mute : ¬ s.Offers)
    (hh : t.IsHead (headOf size)) (fits : size = 0 ∨ Size.step ≤ size ∧ size ≤ s.pageSize)
    (none : ∀ y u, t.get? y = some u → u.Offers → headOf u.slotSize ≠ headOf size) :
    (t.enlist (headOf size) id size).Gives fun t' => t.IdleLast → t'.IdleLast := by
  obtain ⟨lists, L, members⟩ := W.listed
  refine ((enlist_yields W hs mute hh fits).gives.and (L.enlist hh hs)).mono ?_
  rintro t' ⟨⟨s', -, replaces, -⟩, -, L'⟩ I
  refine I.replaces L replaces L' (fun h _ => ?_) fun u _ _ h isHead mem => ?_
  · split
    · exact .inr (.inl rfl)
    · exact .inl rfl
  · split at mem
    · rename_i here
      have empty : lists h = [] := List.eq_nil_iff_forall_not_mem.2 fun y inner => by
        obtain ⟨v, hv, offers, same⟩ := (members h isHead y).1 inner
        exact none y v hv offers (same.trans here)
      rw [if_pos here, empty]
      rfl
    · exact absurd mem (free_of_mute members hs mute h isHead)

theorem insert_keeps_idleLast (W : t.Wf headOf) (I : t.IdleLast) : (t.insert s).1.IdleLast := by
  obtain ⟨lists, L, members⟩ := W.listed
  obtain ⟨fresh, replaces, L'⟩ := L.insert s
  refine I.replaces L replaces L' (fun _ _ => .inl rfl) fun _ _ _ h hh mem => ?_
  have named := L.members h hh _ mem
  rw [fresh] at named
  cases named

theorem remove_keeps_idleLast (W : t.Wf headOf) (hs : t.get? id = some s) (mute : ¬ s.Offers) :
    (t.remove id).Gives fun r => t.IdleLast → r.1.IdleLast := by
  obtain ⟨lists, L, members⟩ := W.listed
  refine (L.remove hs (free_of_mute members hs mute)).gives.mono ?_
  rintro r ⟨-, replaces, L'⟩ I
  exact I.replaces L replaces L' (fun _ _ => .inl rfl) nofun

/-- A table without subpages has no idle one. -/
theorem idleLast_of_empty (none : ∀ x s, t.get? x ≠ some s) : t.IdleLast :=
  fun _ _ x _ s hs => absurd hs (none x s)

end SubpageTable

end BufferPool
