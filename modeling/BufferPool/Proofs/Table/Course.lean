import BufferPool.Proofs.Table.Order

/-!
# A table in use

`SubpageTable.Course` is what callers may do to a table: lists are added, pages of one size are inserted,
carved under the head of their size while they are in no list, leased from, given back to under the same
head, and removed while they are in no list. Whatever the course, the links hold one finite sequence of
subpages for each head, readable in both directions, and each operation does to these sequences what it
would do to plain lists (`SubpageTable.course_represents`).
-/

namespace BufferPool.SubpageTable

variable {headOf : Nat → SubpageId} {pageSize : Nat} {keepLast : Bool} {t t' : SubpageTable}
  {head id : SubpageId} {s : Subpage} {size : Nat}

/-- The tables that come about, where the head of a slot size is `headOf` of it. -/
inductive Course (headOf : Nat → SubpageId) (pageSize : Nat) (keepLast : Bool) : SubpageTable → Prop
  | empty : Course headOf pageSize keepLast (.empty keepLast)
  | addHead {t : SubpageTable} : Course headOf pageSize keepLast t →
    Course headOf pageSize keepLast t.addHead.1
  | insert {t : SubpageTable} {chunk offset : Nat} {page : UInt32} : Course headOf pageSize keepLast t →
    Course headOf pageSize keepLast (t.insert (.ofPage chunk page offset pageSize)).1
  | enlist {t t' : SubpageTable} {id : SubpageId} {s : Subpage} {size : Nat} :
    Course headOf pageSize keepLast t → t.get? id = some s → t.linksAt id.node = none →
    t.IsHead (headOf size) → size = 0 ∨ Size.step ≤ size ∧ size ≤ pageSize / 2 →
    t.enlist (headOf size) id size = .ok t' → Course headOf pageSize keepLast t'
  | lease {t : SubpageTable} {id : SubpageId} {s : Subpage} {r : SubpageTable × Option Locator} :
    Course headOf pageSize keepLast t → t.get? id = some s → t.lease id = .ok r →
    Course headOf pageSize keepLast r.1
  | giveBack {t : SubpageTable} {id : SubpageId} {s : Subpage} {slot : Nat} {r : SubpageTable × Bool} :
    Course headOf pageSize keepLast t → t.get? id = some s → s.active = true → s.Lends slot →
    t.giveBack (headOf s.slotSize) id slot = .ok r → Course headOf pageSize keepLast r.1
  | remove {t : SubpageTable} {id : SubpageId} {s : Subpage} {r : SubpageTable × Subpage} :
    Course headOf pageSize keepLast t → t.get? id = some s → t.linksAt id.node = none →
    t.remove id = .ok r → Course headOf pageSize keepLast r.1

/-! ## What every course keeps -/

/-- A well-formed table of subpages on pages of one size. -/
structure Uniform (headOf : Nat → SubpageId) (pageSize : Nat) (t : SubpageTable) : Prop where
  wf : t.Wf headOf
  pageSize : ∀ x s, t.get? x = some s → s.pageSize = pageSize

theorem Wf.addHead (W : t.Wf headOf) : t.addHead.1.Wf headOf := by
  obtain ⟨lists, L, members⟩ := W.listed
  have A := L.addsHead
  refine ⟨fun x s hs => ?_, fun x s hs active => ?_, _, L.addHead, fun h hh x => ?_⟩
  · rw [A.get?] at hs
    exact W.subpages x s hs
  · rw [A.get?] at hs
    exact A.isHead_iff.2 (.inr (W.served x s hs active))
  · simp only [A.get?]
    rcases A.isHead_iff.1 hh with rfl | before
    · -- What offers a slot is served by a head of before.
      rw [Function.update_self]
      refine iff_of_false List.not_mem_nil ?_
      rintro ⟨s, hs, offers, serves⟩
      exact A.ne_head (W.served x s hs offers.active) serves
    · rw [Function.update_of_ne (A.ne_head before)]
      exact members h before x

/-- A subpage without links has no slot to give. -/
theorem Wf.mute_of_unlinked (W : t.Wf headOf) (hs : t.get? id = some s)
    (unlinked : t.linksAt id.node = none) : ¬ s.Offers := by
  intro offers
  obtain ⟨l, linked⟩ := W.linked hs offers
  rw [unlinked] at linked
  cases linked

/-- Without a slot to give a subpage leases none, unless it is one of those that keep no account. -/
theorem lease_of_mute (hs : t.get? id = some s) (mute : ¬ s.Offers) :
    (t.lease id).Yields fun r => r.1 = t := by
  unfold lease
  rw [get_ok hs, Checked.ok_bind]
  by_cases zero : s.slotSize = 0
  · obtain ⟨l, hl⟩ : ∃ l, s.locator 0 = .ok l := Subpage.locator_ok (by omega)
    rw [if_pos zero]
    exact .bind_ok hl (Checked.yields_pure.2 rfl)
  · have nothing : s.available = 0 ∨ (!s.active) = true := by
      by_contra some
      obtain ⟨room, active⟩ := not_or.1 some
      exact mute ⟨by simpa using active, .inr (Nat.pos_of_ne_zero room)⟩
    rw [if_neg zero, if_pos nothing]
    exact Checked.yields_pure.2 rfl

namespace Uniform

theorem empty (headOf : Nat → SubpageId) (pageSize : Nat) (keepLast : Bool) :
    (SubpageTable.empty keepLast).Uniform headOf pageSize := by
  have vacant : ∀ x, (SubpageTable.empty keepLast).get? x = none := fun _ => rfl
  have headless : ∀ h, ¬ (SubpageTable.empty keepLast).IsHead h := fun h hh =>
    absurd hh.holds.lt_size (Nat.not_lt_zero _)
  refine ⟨⟨fun x s hs => ?_, fun x s hs => ?_, fun _ => [], ⟨fun h hh => absurd hh (headless h),
    fun h hh => absurd hh (headless h), fun h _ _ hh => absurd hh (headless h), fun x hx => ?_,
    fun i hi => ?_, List.nodup_nil⟩, fun h hh => absurd hh (headless h)⟩, fun x s hs => ?_⟩
  · cases (vacant x).symm.trans hs
  · cases (vacant x).symm.trans hs
  · cases (vacant x) ▸ hx
  · cases hi
  · cases (vacant x).symm.trans hs

/-- A change of one subpage to one on a page of the same size. -/
theorem of_replaces (U : t.Uniform headOf pageSize) {o : Option Subpage} (r : t.Replaces id o t')
    (wf : t'.Wf headOf) (same : ∀ u, o = some u → u.pageSize = pageSize) : t'.Uniform headOf pageSize where
  wf := wf
  pageSize x u hu := by
    rw [r.get?] at hu
    split at hu
    · exact same u hu
    · exact U.pageSize x u hu

theorem addHead (U : t.Uniform headOf pageSize) : t.addHead.1.Uniform headOf pageSize where
  wf := U.wf.addHead
  pageSize x s hs := by
    obtain ⟨lists, L, -⟩ := U.wf.listed
    rw [L.addsHead.get?] at hs
    exact U.pageSize x s hs

theorem insert (U : t.Uniform headOf pageSize) (fits : Subpage.PageFits pageSize) (chunk offset : Nat)
    (page : UInt32) : (t.insert (.ofPage chunk page offset pageSize)).1.Uniform headOf pageSize := by
  obtain ⟨-, replaces, wf⟩ := insert_yields U.wf (Subpage.wf_ofPage chunk page offset fits) rfl
  exact U.of_replaces replaces wf fun u e => by cases e; rfl

theorem enlist (U : t.Uniform headOf pageSize) (hs : t.get? id = some s)
    (unlinked : t.linksAt id.node = none) (hh : t.IsHead (headOf size))
    (fits : size = 0 ∨ Size.step ≤ size ∧ size ≤ pageSize / 2) :
    (t.enlist (headOf size) id size).Yields fun t' => t'.Uniform headOf pageSize := by
  have whole := U.pageSize id s hs
  have inside : size = 0 ∨ Size.step ≤ size ∧ size ≤ s.pageSize :=
    fits.imp_right fun ⟨least, most⟩ => ⟨least, by omega⟩
  refine (enlist_yields U.wf hs (U.wf.mute_of_unlinked hs unlinked) hh inside).mono ?_
  rintro t' ⟨s', wf, replaces, same, -⟩
  refine U.of_replaces replaces wf fun u e => ?_
  cases e
  rw [same.pageSize, whole]

theorem lease (U : t.Uniform headOf pageSize) (hs : t.get? id = some s) :
    (t.lease id).Gives fun r => r.1.Uniform headOf pageSize := by
  by_cases offers : s.Offers
  · obtain ⟨slot, s', leases, -, outcome⟩ := lease_cases U.wf hs offers
    cases named : s.locator slot with
    | error v =>
      rw [named] at outcome
      rw [outcome]
      exact Checked.gives_error
    | ok l =>
      rw [named] at outcome
      refine outcome.gives.mono fun r ⟨_, wf, replaces⟩ => U.of_replaces replaces wf fun u e => ?_
      cases e
      rw [leases.same.pageSize, U.pageSize id s hs]
  · exact (lease_of_mute hs offers).gives.mono fun r same => same ▸ U

theorem giveBack (U : t.Uniform headOf pageSize) (hs : t.get? id = some s) (active : s.active = true)
    {slot : Nat} (lent : s.Lends slot) :
    (t.giveBack (headOf s.slotSize) id slot).Yields fun r => r.1.Uniform headOf pageSize := by
  refine (giveBack_yields U.wf hs active lent).mono ?_
  rintro r ⟨s', wf, replaces, regains, -⟩
  refine U.of_replaces replaces wf fun u e => ?_
  cases e
  rw [regains.same.pageSize, U.pageSize id s hs]

theorem remove (U : t.Uniform headOf pageSize) (hs : t.get? id = some s)
    (unlinked : t.linksAt id.node = none) :
    (t.remove id).Yields fun r => r.1.Uniform headOf pageSize :=
  (remove_yields U.wf hs (U.wf.mute_of_unlinked hs unlinked)).mono fun _ ⟨replaces, wf⟩ =>
    U.of_replaces replaces wf nofun

end Uniform

theorem Course.uniform (fits : Subpage.PageFits pageSize) (course : Course headOf pageSize keepLast t) :
    t.Uniform headOf pageSize := by
  induction course with
  | empty => exact .empty headOf pageSize keepLast
  | addHead _ ih => exact ih.addHead
  | insert _ ih => exact ih.insert fits _ _ _
  | enlist _ hs unlinked hh size enlisted ih => exact (ih.enlist hs unlinked hh size).gives _ enlisted
  | lease _ hs leased ih => exact ih.lease hs _ leased
  | giveBack _ hs active lent returned ih => exact (ih.giveBack hs active lent).gives _ returned
  | remove _ hs unlinked removed ih => exact (ih.remove hs unlinked).gives _ removed

/-! ## The sequences of a table -/

/-- The links of a table represent one sequence of subpages for each head. -/
structure Represents (t : SubpageTable) : Prop where
  /-- The successors from the head on are the members in order, and then the head. -/
  forth : ∀ h, t.IsHead h → (h :: (t.members h ++ [h])).IsChain fun x y => t.next? x = some y
  /-- The predecessors from the head on are the members in reverse, and then the head. -/
  back : ∀ h, t.IsHead h → (h :: ((t.members h).reverse ++ [h])).IsChain fun x y => t.prev? x = some y
  nodup : ∀ h, t.IsHead h → (t.members h).Nodup
  subpage : ∀ h, t.IsHead h → ∀ x ∈ t.members h, ∃ s, t.get? x = some s
  /-- No subpage is in two sequences. -/
  apart : ∀ h h', t.IsHead h → t.IsHead h' → h ≠ h' → (t.members h).Disjoint (t.members h')
  linked : ∀ x s, t.get? x = some s →
    ((t.linksAt x.node).isSome = true ↔ ∃ h, t.IsHead h ∧ x ∈ t.members h)
  front : ∀ h, t.IsHead h → t.front? h = .ok (t.members h).head?
  length : ∀ h, t.IsHead h → t.length h = .ok (t.members h).length
  /-- The loop that counts the members ends. -/
  counts : ∀ h, t.IsHead h → ∃ l, t.links h = .ok l ∧ t.Counts h l.next (t.members h).length

theorem Listed.represents {lists : SubpageId → List SubpageId} (listed : t.Listed lists) :
    t.Represents := by
  have L : t.Listed t.members := listed.congr fun h hh => listed.members_eq hh
  refine ⟨fun h hh => (L.ring h hh).chain.imp fun _ _ joined => joined.1, fun h hh => ?_,
    fun h hh => (L.ring h hh).nodup, fun h hh x hx => Option.isSome_iff_exists.1 (L.members h hh x hx),
    fun h h' hh hh' ne x hx hx' => ne (L.apart h h' x hh hh' hx hx'), fun x s hs => L.isSome_links_iff hs,
    fun h hh => (L.ring h hh).front?_eq, fun h hh => L.length_eq hh, fun h hh => ?_⟩
  · have around := List.isChain_reverse.2 ((L.ring h hh).chain.imp fun x y joined => joined.2)
    simpa using around
  · obtain ⟨n, rest, en, hn⟩ := (L.ring h hh).next_head
    obtain ⟨l, links, rfl⟩ := linked_of_next? hn
    have chain := (L.ring h hh).chain
    rw [en] at chain
    exact ⟨l, links_ok links, counts_of_chain en (List.isChain_cons_cons.1 chain).2
      fun x hx e => (L.ring h hh).ne_head hx (congrArg SubpageId.node e)⟩

/-- What a caller may do to a table succeeds, and does to the sequences what it would do to lists. -/
structure Performs (headOf : Nat → SubpageId) (pageSize : Nat) (t : SubpageTable) : Prop where
  /-- A head that is added is a new one, with an empty sequence. -/
  addHead : ¬ t.IsHead t.addHead.2 ∧ t.addHead.1.IsHead t.addHead.2 ∧
    t.addHead.1.members t.addHead.2 = [] ∧ t.Becomes t.addHead.1 t.members
  insert : ∀ s, t.Becomes (t.insert s).1 t.members
  /-- A subpage that is carved is put in front. -/
  enlist : ∀ id s size, t.get? id = some s → t.linksAt id.node = none → t.IsHead (headOf size) →
    size = 0 ∨ Size.step ≤ size ∧ size ≤ pageSize / 2 →
    ∃ t', t.enlist (headOf size) id size = .ok t' ∧
      t.Becomes t' fun h => if h = headOf size then id :: t.members h else t.members h
  /-- A subpage whose last slot is leased is taken out. A slot that no locator can name is not leased. -/
  lease : ∀ id s, t.get? id = some s → (s.slots ≤ 2 ^ 30 → ∃ r, t.lease id = .ok r) ∧
    ∀ r, t.lease id = .ok r →
      t.Becomes r.1 fun h => if s.HasOneLeft then (t.members h).erase id else t.members h
  /-- A full subpage is put in front, and one that does not stay carved is taken out. -/
  giveBack : ∀ id s slot, t.get? id = some s → s.active = true → s.Lends slot →
    ∃ t' stays, t.giveBack (headOf s.slotSize) id slot = .ok (t', stays) ∧
      t.Becomes t' fun h =>
        if s.IsFull then if h = headOf s.slotSize then id :: t.members h else t.members h
        else if stays then t.members h else (t.members h).erase id
  remove : ∀ id s, t.get? id = some s → t.linksAt id.node = none →
    ∃ t', t.remove id = .ok (t', s) ∧ t.Becomes t' t.members

theorem Uniform.performs (U : t.Uniform headOf pageSize) : t.Performs headOf pageSize := by
  obtain ⟨lists, listed, members⟩ := U.wf.listed
  have L : t.Listed t.members := listed.congr fun h hh => listed.members_eq hh
  have becomes : ∀ {t' : SubpageTable} {after : SubpageId → List SubpageId}, t'.Listed after →
      (∀ h, t'.IsHead h ↔ t.IsHead h) → t.Becomes t' after := fun L' heads h hh =>
    ⟨(heads h).2 hh, L'.members_eq ((heads h).2 hh)⟩
  refine ⟨?_, fun s => ?_, fun id s size hs unlinked hh fits => ?_, fun id s hs => ⟨fun few => ?_, ?_⟩,
    fun id s slot hs active lent => ?_, fun id s hs unlinked => ?_⟩
  · have A := L.addsHead
    have L' := L.addHead
    refine ⟨fun hh => A.ne_head hh rfl, A.isHead_self, ?_, fun h hh => ?_⟩
    · rw [L'.members_eq A.isHead_self, Function.update_self]
    · have after := A.isHead_iff.2 (.inr hh)
      exact ⟨after, by rw [L'.members_eq after, Function.update_of_ne (A.ne_head hh)]⟩
  · obtain ⟨-, replaces, L'⟩ := L.insert s
    exact becomes L' replaces.heads
  · obtain ⟨t', enlisted, -, heads, L'⟩ := (U.enlist hs unlinked hh fits).and_gives (L.enlist hh hs)
    exact ⟨t', enlisted, becomes L' heads⟩
  · by_cases offers : s.Offers
    · obtain ⟨r, leased, -⟩ := lease_yields U.wf hs offers few
      exact ⟨r, leased⟩
    · obtain ⟨r, leased, -⟩ := lease_of_mute hs offers
      exact ⟨r, leased⟩
  · intro r leased
    obtain ⟨heads, L'⟩ := L.lease hs r leased
    exact becomes L' heads
  · have hh := U.wf.served id s hs active
    obtain ⟨⟨t', stays⟩, returned, -, heads, L'⟩ :=
      (U.giveBack hs active lent).and_gives (L.giveBack hh hs)
    exact ⟨t', stays, returned, becomes L' heads⟩
  · obtain ⟨⟨t', s'⟩, removed, rfl, replaces, L'⟩ := L.remove hs (L.free_of_unlinked unlinked)
    exact ⟨t', removed, becomes L' replaces.heads⟩

/-- The links of a table in use represent one sequence of subpages for each head, and every operation
does to these sequences what it would do to lists. -/
theorem course_represents {k : Nat} (course : Course headOf (2 ^ k) keepLast t) :
    t.Represents ∧ t.Performs headOf (2 ^ k) := by
  have uniform := course.uniform (Subpage.pageFits_two_pow k)
  obtain ⟨lists, listed, -⟩ := uniform.wf.listed
  exact ⟨listed.represents, uniform.performs⟩

/-- A page of two slots stands alone in its list, and leaves it when the second slot is leased. -/
theorem course_represents_exhausted : ∃ t t' : SubpageTable, ∃ locator,
    Course (fun _ => ⟨0, 0⟩) (2 ^ 10) true t ∧ t.members ⟨0, 0⟩ = [⟨1, 0⟩] ∧
      t.lease ⟨1, 0⟩ = .ok (t', some locator) ∧ t'.members ⟨0, 0⟩ = [] ∧
      t'.Represents ∧ t'.Performs (fun _ => ⟨0, 0⟩) (2 ^ 10) := by
  let blank : Subpage := .ofPage 1 0 0 (2 ^ 10)
  let carved : Subpage :=
    { blank with liveWords := 1, slotSize := 512, slots := 2, available := 2, hint := some 0, active := true }
  let half : Subpage := { carved with bitmap := #[1], available := 1, hint := none }
  let full : Subpage := { carved with bitmap := #[3], available := 0, hint := none }
  let inserted : SubpageTable :=
    ⟨#[⟨some ⟨⟨0, 0⟩, ⟨0, 0⟩⟩, .head, 0⟩, ⟨none, .subpage blank, 0⟩], [], true⟩
  let listed (s : Subpage) : SubpageTable :=
    ⟨#[⟨some ⟨⟨1, 0⟩, ⟨1, 0⟩⟩, .head, 0⟩, ⟨some ⟨⟨0, 0⟩, ⟨0, 0⟩⟩, .subpage s, 0⟩], [], true⟩
  let exhausted : SubpageTable :=
    ⟨#[⟨some ⟨⟨0, 0⟩, ⟨0, 0⟩⟩, .head, 0⟩, ⟨none, .subpage full, 0⟩], [], true⟩
  have start : Course (fun _ => ⟨0, 0⟩) (2 ^ 10) true inserted := Course.empty.addHead.insert
  have enlisted : inserted.enlist ⟨0, 0⟩ ⟨1, 0⟩ 512 = .ok (listed carved) := by
    have found : inserted.get ⟨1, 0⟩ = .ok blank := get_ok rfl
    have slots : blank.carve 512 = .ok carved := by cbv
    have unlinked : ((inserted.set ⟨1, 0⟩ carved).linksAt 1).isNone = true := rfl
    rw [enlist, found, Checked.ok_bind, slots, Checked.ok_bind, link, Checked.guard_ok unlinked]
    cbv
  have first : (listed carved).lease ⟨1, 0⟩ = .ok (listed half, some ⟨0x4000000000000000⟩) := by cbv
  have second : (listed half).lease ⟨1, 0⟩ = .ok (exhausted, some ⟨0x4000000100000000⟩) := by cbv
  have halved : Course (fun _ => ⟨0, 0⟩) (2 ^ 10) true (listed half) :=
    (start.enlist rfl rfl ⟨rfl, rfl⟩ (.inr (by decide)) enlisted).lease rfl first
  exact ⟨_, _, _, halved, rfl, second, rfl, course_represents (halved.lease rfl second)⟩

end BufferPool.SubpageTable
