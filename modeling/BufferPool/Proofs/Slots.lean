import Mathlib.Order.Bounds.Basic
import BufferPool.Proofs.Subpage

/-!
# The history of a page of slots

A page is carved, slots of it are claimed and released, and it is carved again, in any order. What was
done to it determines which slots are leased and which slot the next claim takes: the slot released last,
if nothing was claimed and the page was not carved since, else the lowest one that is not leased
(`Subpage.Record`). The bitmap, the counter and the hint keep to that record along every course of a page
of a power of two bytes (`Subpage.course_keeps_record`).
-/

namespace BufferPool.Subpage

variable {blank s s' : Subpage} {l : Record} {slot slotSize : Nat}

/-- What is known of the slots of a page from what was done to it. -/
structure Record where
  slots : Nat
  leased : Finset Nat
  /-- The slot released last, if nothing was claimed and the page was not carved since. -/
  recent : Option Nat

namespace Record

/-- A page that was carved into so many slots. -/
def carved (slots : Nat) : Record := ⟨slots, ∅, none⟩

/-- The record after a slot was claimed. -/
def claimed (l : Record) (slot : Nat) : Record := ⟨l.slots, insert slot l.leased, none⟩

/-- The record after a slot was released. -/
def released (l : Record) (slot : Nat) : Record := ⟨l.slots, l.leased.erase slot, some slot⟩

/-- The slot that a claim takes. -/
def Next (l : Record) (slot : Nat) : Prop :=
  match l.recent with
  | some recent => slot = recent
  | none => IsLeast {i | i ∉ l.leased} slot

end Record

/-- The page in state `s` comes from the page `blank`, and `l` is the record of what was done to it. -/
inductive Course (blank : Subpage) : Subpage → Record → Prop
  | start : Course blank blank (.carved 0)
  | carve {s s' : Subpage} {l : Record} {slotSize : Nat} : Course blank s l →
    slotSize = 0 ∨ Size.step ≤ slotSize ∧ slotSize ≤ blank.pageSize → s.carve slotSize = .ok s' →
    Course blank s' (.carved (blank.pageSize / slotSize))
  | claim {s s' : Subpage} {l : Record} {slot : Nat} : Course blank s l → 0 < s.available →
    s.claim = .ok (s', slot) → Course blank s' (l.claimed slot)
  | release {s s' : Subpage} {l : Record} {slot : Nat} : Course blank s l →
    s.release slot = .ok s' → Course blank s' (l.released slot)

/-! ## The hint -/

theorem carve_gives_hint (s : Subpage) (slotSize : Nat) :
    (s.carve slotSize).Gives fun s' => s'.hint = if slotSize = 0 then none else some 0 :=
  .guard fun _ => Checked.gives_pure.2 rfl

theorem claim_gives_hint (s : Subpage) :
    s.claim.Gives fun r => s.nextFree? = .ok (some r.2) ∧ r.1.hint = none := by
  unfold claim
  cases found : s.nextFree? with
  | error v => exact nofun
  | ok slot? =>
    cases slot? with
    | none => exact nofun
    | some slot => exact .guard fun _ => .guard fun _ => .skip fun _ => Checked.gives_pure.2 ⟨rfl, rfl⟩

theorem release_gives_hint (s : Subpage) (slot : Nat) :
    (s.release slot).Gives fun s' => s'.hint = some slot :=
  .guard fun _ => .guard fun _ => .guard fun _ => Checked.gives_pure.2 rfl

/-- Without a hint the next slot is the lowest one that is not leased. -/
theorem nextFree?_least (h : s.Wf) (available : 0 < s.available) (hint : s.hint = none)
    (found : s.nextFree? = .ok (some slot)) : IsLeast {i | i ∉ s.leased} slot := by
  obtain ⟨_, found', i, rfl, lt, free, below⟩ := nextFree?_yields h available
  rw [found] at found'
  cases found'
  refine ⟨by simp [free], fun j free' => Nat.le_of_not_lt fun lower => free' ?_⟩
  exact mem_leased.2 ⟨Nat.lt_trans lower lt, below hint j lower⟩

/-- A slot that is not leased is not released. -/
theorem release_of_notMem (h : s.Wf) (free : slot ∉ s.leased) : s.release slot =
    .error (if slot < s.slots then .doubleFree slot s.pageNumber else .slotOutOfRange slot s.slots) := by
  unfold release
  by_cases lt : slot < s.slots
  · have inside : slot / 64 < s.bitmap.size := Nat.lt_of_lt_of_le (h.word_lt lt) h.liveWords_le
    have clear : s.marked slot = false := by simpa [lt] using free
    rw [Checked.guard_ok (by simpa using lt), Checked.ok_bind, Checked.guard_ok (by simpa using inside),
      Checked.ok_bind, clear, if_pos lt]
    rfl
  · rw [decide_eq_false lt, if_neg lt]
    rfl

/-! ## One step of a course -/

/-- A page that is as its record says. -/
structure Follows (s : Subpage) (blank : Subpage) (l : Record) : Prop where
  wf : s.Wf
  same : blank.SamePage s
  slots : s.slots = l.slots
  leased : s.leased = l.leased
  /-- A hint left by a release is the slot released. -/
  recent : ∀ slot, l.recent = some slot → s.hint = some slot
  /-- Any other hint is the slot that would be found without it. -/
  lowest : l.recent = none → ∀ slot, s.hint = some slot → IsLeast {i | i ∉ l.leased} slot

theorem Follows.carve (f : s.Follows blank l)
    (size : slotSize = 0 ∨ Size.step ≤ slotSize ∧ slotSize ≤ blank.pageSize) :
    (s.carve slotSize).Yields fun s' => s'.Follows blank (.carved (blank.pageSize / slotSize)) := by
  have yields := carve_yields f.wf (f.same.pageSize ▸ size)
  refine (yields.and_gives (carve_gives_hint s slotSize)).mono ?_
  intro s' ⟨⟨wf, same, leased, _, slotSize_eq, _⟩, hint⟩
  refine ⟨wf, f.same.trans same, ?_, leased, nofun, fun _ slot hinted => ?_⟩
  · rw [wf.slots_eq, slotSize_eq, same.pageSize, f.same.pageSize]
    rfl
  · -- Carved into slots, the page hints at slot 0, below which there is none.
    rw [hint] at hinted
    split at hinted
    · cases hinted
    · cases hinted
      exact ⟨Finset.notMem_empty 0, fun _ _ => Nat.zero_le _⟩

theorem Follows.claim (f : s.Follows blank l) (available : 0 < s.available) :
    s.claim.Yields fun r => r.1.Follows blank (l.claimed r.2) ∧ l.Next r.2 ∧ r.2 < l.slots ∧
      r.2 ∉ l.leased := by
  refine ((claim_yields f.wf available).and_gives (claim_gives_hint s)).mono ?_
  intro ⟨s', slot⟩ ⟨⟨wf, same, lt, free, leased, _⟩, found, hint⟩
  have next : l.Next slot := by
    rw [Record.Next]
    cases recent : l.recent with
    | some released =>
      rw [nextFree?, f.recent released recent] at found
      cases found
      rfl
    | none =>
      cases hinted : s.hint with
      | some i =>
        rw [nextFree?, hinted] at found
        cases found
        exact f.lowest recent _ hinted
      | none => exact f.leased ▸ nextFree?_least f.wf available hinted found
  refine ⟨⟨wf, f.same.trans same.toSamePage, same.slots.trans f.slots, ?_, nofun, ?_⟩, next,
    f.slots ▸ lt, f.leased ▸ free⟩
  · rw [leased, f.leased]
    rfl
  · intro _ i hinted
    rw [hint] at hinted
    cases hinted

theorem Follows.release (f : s.Follows blank l) (mem : slot ∈ l.leased) :
    (s.release slot).Yields fun s' => s'.Follows blank (l.released slot) := by
  have yields := release_yields f.wf (f.leased ▸ mem)
  refine (yields.and_gives (release_gives_hint s slot)).mono ?_
  intro s' ⟨⟨wf, same, leased, _⟩, hint⟩
  refine ⟨wf, f.same.trans same.toSamePage, same.slots.trans f.slots, ?_, fun i recent => ?_, nofun⟩
  · rw [leased, f.leased]
    rfl
  · cases recent
    exact hint

theorem Follows.release_of_notMem (f : s.Follows blank l) (free : slot ∉ l.leased) :
    s.release slot = .error (if slot < l.slots then .doubleFree slot blank.pageNumber
      else .slotOutOfRange slot l.slots) := by
  have number : s.pageNumber = blank.pageNumber := congrArg UInt32.toNat f.same.page
  rw [Subpage.release_of_notMem f.wf (f.leased ▸ free), f.slots, number]

/-! ## Every course -/

/-- Along a course the page follows the record. -/
theorem Course.follows (wf : blank.Wf) (unleased : blank.leased = ∅) (uncarved : blank.slots = 0)
    (unhinted : blank.hint = none) (course : Course blank s l) : s.Follows blank l := by
  induction course with
  | start => exact ⟨wf, .refl _, uncarved, unleased, nofun, fun _ slot hinted => by
      rw [unhinted] at hinted
      cases hinted⟩
  | carve _ size carved ih => exact (ih.carve size).gives _ carved
  | claim _ available claimed ih => exact ((ih.claim available).gives _ claimed).1
  | @release s s' l slot _ released ih =>
    by_cases mem : slot ∈ l.leased
    · exact (ih.release mem).gives _ released
    · rw [ih.release_of_notMem mem] at released
      cases released

/-- The state of a page is the one its record tells, and what can be done to it next goes as the record
tells. -/
structure KeepsRecord (s : Subpage) (blank : Subpage) (l : Record) : Prop where
  slots : s.slots = l.slots
  inside : ∀ slot ∈ l.leased, slot < l.slots
  available : s.available = l.slots - l.leased.card
  marked : ∀ slot, s.marked slot = true ↔ slot ∈ l.leased
  /-- The bitmap has a bit for every slot. -/
  word : ∀ slot < l.slots, slot / 64 < s.bitmap.size
  carve : ∀ slotSize, slotSize = 0 ∨ Size.step ≤ slotSize ∧ slotSize ≤ blank.pageSize →
    ∃ s', s.carve slotSize = .ok s'
  claim : 0 < s.available →
    ∃ s' slot, s.claim = .ok (s', slot) ∧ l.Next slot ∧ slot < l.slots ∧ slot ∉ l.leased
  release : ∀ slot ∈ l.leased, ∃ s', s.release slot = .ok s'
  /-- A slot is not released if it is not leased or there is no such slot. -/
  refuse : ∀ slot, slot ∉ l.leased → s.release slot = .error
    (if slot < l.slots then .doubleFree slot blank.pageNumber else .slotOutOfRange slot l.slots)

theorem Follows.keepsRecord (f : s.Follows blank l) : s.KeepsRecord blank l where
  slots := f.slots
  inside slot mem := by
    rw [← f.leased, mem_leased, f.slots] at mem
    exact mem.1
  available := by
    have account := f.wf.account
    rw [f.leased, f.slots] at account
    omega
  marked slot := by
    rw [← f.leased, mem_leased]
    refine (and_iff_right_of_imp fun marks => Nat.lt_of_not_le fun beyond => ?_).symm
    rw [f.wf.clear slot beyond] at marks
    cases marks
  word slot lt := Nat.lt_of_lt_of_le (f.wf.word_lt (f.slots ▸ lt)) f.wf.liveWords_le
  carve slotSize size := by
    obtain ⟨s', carved, -⟩ := f.carve size
    exact ⟨s', carved⟩
  claim available := by
    obtain ⟨⟨s', slot⟩, claimed, -, outcome⟩ := f.claim available
    exact ⟨s', slot, claimed, outcome⟩
  release slot mem := by
    obtain ⟨s', released, -⟩ := f.release mem
    exact ⟨s', released⟩
  refuse _ free := f.release_of_notMem free

/-- Whatever is done to a page of a power of two bytes, its slots are those that its record tells. -/
theorem course_keeps_record {chunk offset k : Nat} {page : UInt32}
    (course : Course (ofPage chunk page offset (2 ^ k)) s l) :
    s.KeepsRecord (ofPage chunk page offset (2 ^ k)) l :=
  (course.follows (wf_ofPage chunk page offset (pageFits_two_pow k))
    (leased_eq_empty (marked_ofPage chunk page offset (2 ^ k))) rfl rfl).keepsRecord

/-- A page of 1024 bytes carved into two slots, both claimed and the first released: that one is the next
to be claimed. -/
theorem course_keeps_record_released : ∃ s : Subpage,
    Course (ofPage 1 0 0 (2 ^ 10)) s ⟨2, {1}, some 0⟩ ∧
      s.KeepsRecord (ofPage 1 0 0 (2 ^ 10)) ⟨2, {1}, some 0⟩ := by
  have carved : (ofPage 1 0 0 (2 ^ 10)).carve 512 =
      .ok ⟨1, 0, 0, 1024, #[0], 1, 512, 2, 2, some 0, true⟩ := by cbv
  have first : Subpage.claim ⟨1, 0, 0, 1024, #[0], 1, 512, 2, 2, some 0, true⟩ =
      .ok (⟨1, 0, 0, 1024, #[1], 1, 512, 2, 1, none, true⟩, 0) := by cbv
  have second : Subpage.claim ⟨1, 0, 0, 1024, #[1], 1, 512, 2, 1, none, true⟩ =
      .ok (⟨1, 0, 0, 1024, #[3], 1, 512, 2, 0, none, true⟩, 1) := by cbv
  have released : Subpage.release ⟨1, 0, 0, 1024, #[3], 1, 512, 2, 0, none, true⟩ 0 =
      .ok ⟨1, 0, 0, 1024, #[2], 1, 512, 2, 1, some 0, true⟩ := by cbv
  have course := (((Course.start.carve (.inr (by decide)) carved).claim (by decide) first).claim
    (by decide) second).release released
  exact ⟨_, course, course_keeps_record course⟩

end BufferPool.Subpage
