import BufferPool.Proofs.Arena.Lease
import BufferPool.Proofs.FirstFit

/-!
# Numbers packed into locators

The first page of a run and the number of a slot are plain numbers until they are packed into a locator, whose
fields have 32 and 30 bits. `Arena.PacksRun` and `Arena.PacksSlot` are the numbers that a request for a lease
can come to pack, and every pooled lease is named by such numbers. In a well-formed arena they fit: a chunk has
fewer pages, and a page fewer slots (`Arena.PacksExactly`).
-/

namespace BufferPool

/-- Leasing `length` pages packs the number of the page at which they start. -/
structure PageMap.Packs (m : PageMap) (length start : Nat) : Prop where
  positive : 0 < length
  enough : length ≤ m.free
  found : PageMap.firstFit? m.used length 0 = some start

/-- Leasing from the subpage of an identifier packs the number of a slot. -/
inductive SubpageTable.Packs (t : SubpageTable) (id : SubpageId) : Subpage → Nat → Prop where
  /-- Slot 0 of a page that keeps no account. -/
  | shared {s : Subpage} (named : t.get? id = some s) (zero : s.slotSize = 0) : Packs t id s 0
  /-- The slot that is claimed. -/
  | claimed {s s' : Subpage} {slot : Nat} (named : t.get? id = some s) (room : 0 < s.available)
      (claimed : s.claim = .ok (s', slot)) : Packs t id s' slot

namespace Arena

open Size

/-- Taking `length` pages packs the number of a page of a chunk that is held, or of a new one. -/
inductive PacksRun (a : Arena) (length start : Nat) : Prop where
  | held {c : PooledChunk} (held : c ∈ a.chunks) (packs : c.pages.Packs length start)
  | added (packs : (PageMap.ofPages (a.chunkSize / a.config.pageSize) a.config.pageSize).Packs length start)

/-- A request for `capacity` bytes packs the number of a slot of the subpage at the front of its list, or of a
page that is carved for it. -/
inductive PacksSlot (a : Arena) (capacity : Nat) : Subpage → Nat → Prop where
  | listed {head id : SubpageId} {s : Subpage} {slot : Nat}
      (list : a.listHead (a.rounded capacity) = .ok head) (front : a.table.front? head = .ok (some id))
      (packs : a.table.Packs id s slot) : PacksSlot a capacity s slot
  | fresh {head id : SubpageId} {a₁ a₂ : Arena} {index : Nat} {run : Locator} {t : SubpageTable}
      {s : Subpage} {slot : Nat} (list : a.listHead (a.rounded capacity) = .ok head)
      (taken : a.takeRun 1 = .ok (a₁, .ok (index, run)))
      (created : a₁.subpageFor index run.page = .ok (a₂, id))
      (carved : a₂.table.enlist head id (a.rounded capacity) = .ok t) (packs : t.Packs id s slot) :
      PacksSlot a capacity s slot

/-- A locator that a request for `capacity` bytes packs. -/
inductive PacksLocator (a : Arena) (capacity : Nat) (l : Locator) : Prop where
  | run {length start : Nat} (packs : a.PacksRun length start) (packed : l = .run (.ofNat start))
  | slot {s : Subpage} {slot : Nat} (packs : a.PacksSlot capacity s slot) (packed : s.locator slot = .ok l)

variable {a : Arena} {id : SubpageId} {s : Subpage} {l : Locator} {length start slot capacity : Nat}

/-! ## Every locator of a lease is packed from such numbers -/

theorem packs_of_takeRun? {m m' : PageMap} (taken : m.takeRun? length = some (m', l)) :
    ∃ start, m.Packs length start ∧ l = .run (.ofNat start) := by
  unfold PageMap.takeRun? at taken
  split at taken
  · cases taken
  · rename_i enough
    split at taken
    · cases taken
    · rename_i start found
      cases taken
      exact ⟨start, ⟨by omega, by omega, found⟩, rfl⟩

theorem takeRun_gives_packs (length : Nat) : (a.takeRun length).Gives fun r => ∀ index l,
    r.2 = .ok (index, l) → ∃ start, a.PacksRun length start ∧ l = .run (.ofNat start) := by
  unfold takeRun
  split
  · rename_i index m run found
    refine Checked.gives_ok.2 fun _ l e => ?_
    cases e
    obtain ⟨j, c, -, hc, taken⟩ := firstRun?_eq_some found
    obtain ⟨start, packs, packed⟩ := packs_of_takeRun? taken
    exact ⟨start, .held (Array.mem_toList_iff.1 (List.mem_of_getElem? hc)) packs, packed⟩
  · unfold growTakingRun
    split
    · exact Checked.gives_ok.2 nofun
    · split
      · exact Checked.gives_ok.2 nofun
      · dsimp only
        split
        · exact Checked.gives_error
        · rename_i m run taken
          refine Checked.gives_ok.2 fun _ l e => ?_
          cases e
          obtain ⟨start, packs, packed⟩ := packs_of_takeRun? taken
          exact ⟨start, .added packs, packed⟩

theorem table_lease_gives_packs (t : SubpageTable) (id : SubpageId) : (t.lease id).Gives fun r =>
    ∀ l, r.2 = some l → ∃ s slot, t.Packs id s slot ∧ s.locator slot = .ok l := by
  unfold SubpageTable.lease
  cases found : t.get id with
  | error v => exact Checked.gives_error
  | ok s =>
    have named := SubpageTable.get?_of_get found
    rw [Checked.ok_bind]
    split
    · rename_i zero
      cases packed : s.locator 0 with
      | error v => exact Checked.gives_error
      | ok l =>
        refine Checked.gives_pure.2 fun l' e => ?_
        cases e
        exact ⟨s, 0, .shared named zero, packed⟩
    · split
      · exact Checked.gives_pure.2 nofun
      · rename_i offers
        cases claimed : s.claim with
        | error v => exact Checked.gives_error
        | ok r =>
          obtain ⟨s', slot⟩ := r
          rw [Checked.ok_bind]
          dsimp only
          cases packed : s'.locator slot with
          | error v => exact Checked.gives_error
          | ok l =>
            have packs : t.Packs id s' slot := .claimed named (by omega) claimed
            rw [Checked.ok_bind]
            split <;>
            · refine Checked.Gives.skip fun t' => Checked.gives_pure.2 fun l' e => ?_
              cases e
              exact ⟨s', slot, packs, packed⟩

theorem slotLease_gives_location (id : SubpageId) (l : Locator) (capacity : Nat) :
    (a.slotLease id l capacity).Gives fun lease => lease.location = .pooled l :=
  .skip fun _ => .skip fun _ => .skip fun _ => .skip fun _ => .skip fun _ => Checked.gives_pure.2 rfl

theorem leaseListed?_gives_packs (head : SubpageId) (size : Nat) : (a.leaseListed? head size).Gives fun r =>
    ∀ t id l, r = some (t, id, l) →
      a.table.front? head = .ok (some id) ∧ ∃ s slot, a.table.Packs id s slot ∧ s.locator slot = .ok l := by
  unfold leaseListed?
  cases front : a.table.front? head with
  | error v => exact Checked.gives_error
  | ok first =>
    rw [Checked.ok_bind]
    cases first with
    | none => exact Checked.gives_pure.2 nofun
    | some id =>
      refine Checked.Gives.skip fun s => Checked.Gives.skip fun _ =>
        (table_lease_gives_packs a.table id).bind fun r packs => ?_
      obtain ⟨t, answer⟩ := r
      cases answer with
      | none => exact Checked.gives_pure.2 nofun
      | some l =>
        refine Checked.gives_pure.2 fun t' id' l' e => ?_
        cases e
        exact ⟨rfl, packs l rfl⟩

theorem leaseFresh_gives_packs {head : SubpageId} (list : a.listHead (a.rounded capacity) = .ok head) :
    (a.leaseFresh head (a.rounded capacity) capacity).Gives fun r => ∀ lease l,
      r.2 = .ok lease → lease.location = .pooled l → a.PacksLocator capacity l := by
  unfold leaseFresh
  cases taken : a.takeRun 1 with
  | error v => exact Checked.gives_error
  | ok r =>
    obtain ⟨a₁, answer⟩ := r
    rw [Checked.ok_bind]
    cases answer with
    | error refusal => exact Checked.gives_pure.2 nofun
    | ok place =>
      obtain ⟨index, run⟩ := place
      dsimp only
      cases created : a₁.subpageFor index run.page with
      | error v => exact Checked.gives_error
      | ok r =>
        obtain ⟨a₂, id⟩ := r
        rw [Checked.ok_bind]
        dsimp only
        cases carved : a₂.table.enlist head id (a.rounded capacity) with
        | error v => exact Checked.gives_error
        | ok t =>
          refine (table_lease_gives_packs t id).bind fun r packs => ?_
          obtain ⟨t', answer⟩ := r
          cases answer with
          | none => exact Checked.gives_error
          | some l =>
            obtain ⟨s, slot, packs, packed⟩ := packs l rfl
            refine (slotLease_gives_location id l capacity).bind fun lease location =>
              Checked.gives_pure.2 fun lease' l' e pooled => ?_
            cases e
            rw [location] at pooled
            cases pooled
            exact .slot (.fresh list taken created carved packs) packed

theorem leaseSlot_gives_packs (capacity : Nat) : (a.leaseSlot (a.rounded capacity) capacity).Gives fun r =>
    ∀ lease l, r.2 = .ok lease → lease.location = .pooled l → a.PacksLocator capacity l := by
  unfold leaseSlot
  cases list : a.listHead (a.rounded capacity) with
  | error v => exact Checked.gives_error
  | ok head =>
    refine (leaseListed?_gives_packs head (a.rounded capacity)).bind fun found packs => ?_
    cases found with
    | none => exact leaseFresh_gives_packs list
    | some found =>
      obtain ⟨t, id, l⟩ := found
      obtain ⟨front, s, slot, packs, packed⟩ := packs t id l rfl
      refine (slotLease_gives_location id l capacity).bind fun lease location =>
        Checked.gives_pure.2 fun lease' l' e pooled => ?_
      cases e
      rw [location] at pooled
      cases pooled
      exact .slot (.listed list front packs) packed

theorem leaseRun_gives_packs (size capacity : Nat) : (a.leaseRun size capacity).Gives fun r =>
    ∀ lease l, r.2 = .ok lease → lease.location = .pooled l → a.PacksLocator capacity l := by
  unfold leaseRun
  refine (takeRun_gives_packs (size / a.config.pageSize)).bind fun r packs => ?_
  obtain ⟨a₁, answer⟩ := r
  cases answer with
  | error refusal => exact Checked.gives_pure.2 nofun
  | ok place =>
    obtain ⟨index, run⟩ := place
    obtain ⟨start, packs, packed⟩ := packs index run rfl
    refine Checked.Gives.skip fun c => Checked.Gives.skip fun offset => Checked.Gives.skip fun length =>
      Checked.gives_pure.2 fun lease l e pooled => ?_
    cases e
    cases pooled
    exact .run packs packed

/-- A pooled lease has a locator that is packed from such numbers. -/
theorem lease_gives_packs (capacity : Nat) : (a.lease capacity).Gives fun r => ∀ lease l,
    r.2 = .ok lease → lease.location = .pooled l → a.PacksLocator capacity l := by
  unfold lease
  refine Checked.Gives.skip fun kind => ?_
  have granted : (a.grant kind (a.rounded capacity) capacity).Gives fun r => ∀ lease l,
      r.2 = .ok lease → lease.location = .pooled l → a.PacksLocator capacity l := by
    by_cases huge : kind = .huge
    · subst huge
      refine Checked.gives_ok.2 fun lease l e pooled => ?_
      unfold leasePrivate at e
      split at e
      · cases e
      · cases e
        cases pooled
    by_cases normal : kind = .normal
    · subst normal
      exact leaseRun_gives_packs (a.rounded capacity) capacity
    · rw [grant_slot huge normal]
      exact leaseSlot_gives_packs capacity
  refine granted.bind fun r packs => ?_
  obtain ⟨a', answer⟩ := r
  cases answer with
  | error refusal => exact Checked.gives_pure.2 nofun
  | ok lease => exact Checked.gives_pure.2 packs

/-! ## The numbers fit -/

theorem Wf.start_lt {m : PageMap} (W : a.Wf) (count : m.count = a.config.chunkPages)
    (packs : m.Packs length start) : start < 2 ^ 32 := by
  have room : PageMap.Room m.used length start := by
    rcases PageMap.firstFit?_cases m.used length 0 with ⟨p, found, room, -⟩ | ⟨none, -⟩
    · rw [packs.found, Option.some.injEq] at found
      exact found ▸ room
    · cases packs.found.symm.trans none
  have fits : start + length ≤ m.count := room.fits
  have positive := packs.positive
  have pages := W.config.chunkPages_lt
  omega

/-- Every page that is packed is a page of a chunk. -/
theorem PacksRun.lt (W : a.Wf) (packs : a.PacksRun length start) : start < 2 ^ 32 := by
  cases packs with
  | held held packs => exact W.start_lt (W.chunks _ held).count packs
  | added packs => exact W.start_lt (PageMap.count_ofPages _ _) packs

/-- A slot that is packed is one of its page. -/
theorem slot_lt_of_packs {t : SubpageTable} (packs : t.Packs id s slot)
    (wf : ∀ u, t.get? id = some u → u.Wf ∧ u.pageSize ≤ 2 ^ 30) : slot < 2 ^ 30 := by
  cases packs with
  | shared named zero => decide
  | claimed named room claimed =>
    obtain ⟨u, small⟩ := wf _ named
    obtain ⟨-, -, inside, -⟩ := (Subpage.claim_yields u room).gives _ claimed
    exact Nat.lt_trans inside (Subpage.slots_lt u small)

/-- A list is found only for a size that slots are cut to. -/
theorem Wf.isSlot_of_listHead (W : a.Wf) {head : SubpageId}
    (list : a.listHead (a.rounded capacity) = .ok head) :
    IsSlot a.config.pageSize (a.rounded capacity) ∧ head = headOf (a.rounded capacity) := by
  obtain ⟨kind, class_eq, numbered, cases⟩ := W.config.ofSize_rounded capacity
  have classed : a.classOf (a.rounded capacity) = .ok kind := classOf_ok class_eq numbered
  have noList : a.listHead? (a.rounded capacity) ≠ .ok none := fun none => by
    rw [listHead, none] at list
    cases list
  rcases cases with ⟨rfl, -⟩ | ⟨rfl, -⟩ | ⟨-, -, slot⟩
  · exact absurd (by rw [listHead?, classed]; rfl) noList
  · exact absurd (by rw [listHead?, classed]; rfl) noList
  · have slot : IsSlot a.config.pageSize (a.rounded capacity) := slot
    rw [W.listHead_ok slot] at list
    cases list
    exact ⟨slot, rfl⟩

/-- A page that is carved for a request is not larger than a chunk. -/
theorem fits_of_carved (W : a.Wf) {a₁ a₂ : Arena} {size index : Nat} {run : Locator} {t : SubpageTable}
    (slot : IsSlot a.config.pageSize size) (taken : a.takeRun 1 = .ok (a₁, .ok (index, run)))
    (created : a₁.subpageFor index run.page = .ok (a₂, id))
    (carved : a₂.table.enlist (headOf size) id size = .ok t) :
    ∀ u, t.get? id = some u → u.Wf ∧ u.pageSize ≤ 2 ^ 30 := by
  rcases (takeRun_yields W Nat.one_pos W.config.chunkPages_pos).gives _ taken with
    ⟨refusal, refused, -⟩ | ⟨i, start, c, place, takes⟩
  · cases refused
  cases place
  have W₁ := takes.wf
  have inside := takes.fits
  have number : (UInt32.ofNat start).toNat = start :=
    UInt32.toNat_ofNat_of_lt' (Nat.lt_trans (by omega : start < a.config.chunkPages) W.config.chunkPages_lt)
  rw [Locator.page_run] at created
  obtain ⟨s, readies⟩ := (subpageFor_yields W₁ takes.chunk (by rw [number, takes.config]; omega)
    (by rw [number]; exact takes.plain)).gives _ created
  have W₂ := readies.wf
  have config : a₂.config = a.config := readies.config.trans takes.config
  have slot₂ : IsSlot a₂.config.pageSize size := by rw [config]; exact slot
  have pageSize := (W₂.subpages id s readies.named).1
  have step : size = 0 ∨ step ≤ size ∧ size ≤ s.pageSize := by
    by_cases zero : size = 0
    · exact .inl zero
    · rw [pageSize]
      exact .inr ⟨slot₂.step_le zero, Nat.le_of_lt (slot₂.lt W₂.config.le_pageSize)⟩
  obtain ⟨s', wf, replaces, same, -⟩ := (SubpageTable.enlist_yields W₂.table readies.named
    (Subpage.not_offers readies.idle) (W₂.isHead slot₂) step).gives _ carved
  intro u named
  rw [replaces.get?, if_pos rfl, Option.some.injEq] at named
  subst named
  refine ⟨wf.subpages id s' (by rw [replaces.get?, if_pos rfl]), ?_⟩
  rw [same.pageSize, pageSize]
  exact W₂.pageSize_le

theorem PacksSlot.lt (W : a.Wf) (packs : a.PacksSlot capacity s slot) : slot < 2 ^ 30 := by
  cases packs with
  | listed list front packs =>
    exact slot_lt_of_packs packs fun u named =>
      ⟨W.table.subpages _ u named, by rw [(W.subpages _ u named).1]; exact W.pageSize_le⟩
  | fresh list taken created carved packs =>
    obtain ⟨size, rfl⟩ := W.isSlot_of_listHead list
    exact slot_lt_of_packs packs (fits_of_carved W size taken created carved)

/-- All numbers that are packed fit their fields, so they are read off the locators as they are. -/
structure PacksExactly (a : Arena) : Prop where
  run : ∀ length start, a.PacksRun length start →
    start < 2 ^ 32 ∧ (Locator.run (.ofNat start)).page.toNat = start
  slot : ∀ capacity s slot, a.PacksSlot capacity s slot → slot < 2 ^ 30 ∧
    ∃ l k, s.locator slot = .ok l ∧ l.page = s.page ∧ l.slot? = some k ∧ k.toNat = slot
  /-- A lease that is not private has a locator that is packed from such a number. -/
  lease : ∀ capacity, (a.lease capacity).Yields fun r => ∀ lease l,
    r.2 = .ok lease → lease.location = .pooled l → a.PacksLocator capacity l

theorem Wf.packsExactly (W : a.Wf) : a.PacksExactly where
  run length start packs := by
    refine ⟨packs.lt W, ?_⟩
    rw [Locator.page_run]
    exact UInt32.toNat_ofNat_of_lt' (packs.lt W)
  slot capacity s slot packs := by
    have fits := packs.lt W
    obtain ⟨l, packed⟩ := Subpage.locator_ok (s := s) fits
    obtain ⟨page, slot⟩ := Locator.of_slot_eq packed
    exact ⟨fits, l, _, packed, page, slot, UInt32.toNat_ofNat_of_lt' (Nat.lt_trans fits (by decide))⟩
  lease capacity := by
    obtain ⟨r, granted, -⟩ := lease_yields W capacity
    exact ⟨r, granted, lease_gives_packs capacity r granted⟩

end Arena

end BufferPool
