import BufferPool.Proofs.Arena.Alike
import BufferPool.Proofs.Arena.Lease
import BufferPool.Proofs.Arena.Return
import BufferPool.Proofs.Table.Undo

/-!
# A lease that is granted and taken back

A lease that goes back at once leaves an arena that does the same as before (`Arena.Restored`). A run of pages
is put back where it was, and a chunk that was added for it goes with it, since there is another one. A slot is
put back as the one that is leased next, and its page stays carved: an idle page is the first of its list only
where it is alone, and then such pages are kept.
-/

namespace BufferPool

namespace Arena

open Size

variable {a a' a'' : Arena} {l : Lease} {c : PooledChunk} {length index page capacity size : Nat} {m : PageMap}

/-- What is left of a lease that was granted and taken back: hints, counts, and a chunk that is gone. -/
structure Restored (a a' : Arena) : Prop where
  config : a'.config = a.config
  table : a.table.Alike id a'.table
  tinyHeads : a'.tinyHeads = a.tinyHeads
  smallHeads : a'.smallHeads = a.smallHeads
  chunks : a'.chunks = a.chunks
  heap : a.heap.Extends a'.heap

/-! ## Runs of pages -/

/-- A run is taken from a chunk that is held, or from one that is added behind the others. -/
inductive Took (a : Arena) (length : Nat) : Arena → Nat → Nat → Prop where
  | held {c : PooledChunk} {index page : Nat} {m : PageMap} (hi : a.chunks[index]? = some c)
      (takes : c.pages.Takes length page m) : Took a length (a.withPages index m) index page
  | added {heap : Heap} {chunk : Chunk} {page : Nat} {m : PageMap}
      (grown : heap.blocks = a.heap.blocks.push ⟨a.chunkSize, .empty⟩)
      (takes : (PageMap.ofPages a.config.chunkPages a.config.pageSize).Takes length page m) :
      Took a length ({ a with
        heap := heap
        chunks := a.chunks.push ⟨chunk, m⟩
        nextChunkId := a.nextChunkId + 1 }.count .chunkCreated) a.chunks.size page

theorem takeRun_took (W : a.Wf) : (a.takeRun length).Gives fun r => ∀ index run, r.2 = .ok (index, run) →
    ∃ page, run = .run (.ofNat page) ∧ page < 2 ^ 32 ∧ a.Took length r.1 index page := by
  have small : ∀ {m m' : PageMap} {page : Nat}, m.count = a.config.chunkPages → m.Takes length page m' →
      page < 2 ^ 32 := fun count takes => by
    have fits := takes.fits
    have positive := takes.positive
    exact Nat.lt_trans (by omega) W.config.chunkPages_lt
  unfold takeRun
  cases found : firstRun? length a.chunks.toList 0 with
  | some r =>
    obtain ⟨index, m, run⟩ := r
    refine Checked.gives_ok.2 fun _ _ e => ?_
    cases e
    obtain ⟨j, c, rfl, hj, taken⟩ := firstRun?_eq_some found
    rw [Array.getElem?_toList] at hj
    have wf := W.chunks c (mem_of_getElem? hj)
    obtain ⟨page, rfl, takes⟩ := PageMap.takes_of_takeRun? wf.pages taken
    rw [Nat.zero_add]
    exact ⟨page, rfl, small wf.count takes, .held hj takes⟩
  | none =>
    unfold growTakingRun
    by_cases full : a.isFull = true
    · rw [if_pos full]
      refine Checked.gives_ok.2 fun _ _ e => ?_
      cases e
    rw [if_neg full]
    rcases a.heap.obtain?_cases a.chunkSize with ⟨heap, e, -⟩ | ⟨heap, e, grown, -⟩
    · rw [e]
      refine Checked.gives_ok.2 fun _ _ e => ?_
      cases e
    · rw [e]
      dsimp only
      cases taken : (PageMap.ofPages (a.chunkSize / a.config.pageSize) a.config.pageSize).takeRun? length with
      | none => exact Checked.gives_error
      | some r =>
        obtain ⟨m, run⟩ := r
        refine Checked.gives_ok.2 fun _ _ e => ?_
        cases e
        obtain ⟨page, rfl, takes⟩ := PageMap.takes_of_takeRun? (PageMap.wf_ofPages ..) taken
        exact ⟨page, rfl, small (PageMap.count_ofPages ..) takes, .added grown takes⟩

theorem modify_push (chunks : Array PooledChunk) (c : PooledChunk) (f : PooledChunk → PooledChunk) :
    (chunks.push c).modify chunks.size f = chunks.push (f c) := by
  refine Array.ext_getElem? fun j => ?_
  rw [Array.getElem?_modify, Array.getElem?_push, Array.getElem?_push]
  by_cases last : j = chunks.size
  · rw [if_pos last.symm, if_pos last, if_pos last]
    rfl
  · rw [if_neg (Ne.symm last), if_neg last, if_neg last]

/-- The last chunk is given up, and no other one takes its place. -/
theorem removed_push (chunks : Array PooledChunk) (c : PooledChunk) :
    ((chunks.push c).swapIfInBounds chunks.size ((chunks.push c).size - 1)).pop = chunks := by
  have size : (chunks.push c).size = chunks.size + 1 := Array.size_push ..
  refine Array.ext_getElem? fun j => ?_
  rw [getElem?_removed (by omega), size, Nat.add_sub_cancel]
  by_cases inside : j < chunks.size
  · rw [if_pos inside, if_neg (Nat.ne_of_lt inside), Array.getElem?_push, if_neg (Nat.ne_of_lt inside)]
  · rw [if_neg inside, Array.getElem?_eq_none (Nat.le_of_not_lt inside)]

/-- A run that goes back at once leaves its chunk as it was. Where there are others, each chunk that was there
before has a run of its own, so it stays; one that was added has none, and goes. -/
theorem Took.returnRun (h : a.Took length a' index page) (W : a.Wf) (T : a.Tidy) (some : 0 < a.chunks.size)
    (active : Nat) (counters : Counters) :
    (Arena.returnRun { a' with activeLeases := active, counters := counters } index page).Gives fun a'' =>
      a.Restored a'' ∧ a''.activeLeases = active := by
  cases h with
  | @held c _ _ m hi takes =>
    have wf := W.chunks c (mem_of_getElem? hi)
    have here : (a.withPages index m).chunks[index]? = Option.some { c with pages := m } := by
      rw [getElem?_withPages, if_pos rfl, hi]
      rfl
    unfold Arena.returnRun
    refine .bind_ok (chunkAt_ok here) (.bind_ok (takes.returnRun wf.pages) ?_)
    rw [if_neg]
    · have chunks : ((a.withPages index m).withPages index c.pages).chunks = a.chunks := by
        refine Array.ext_getElem? fun j => ?_
        rw [getElem?_withPages, getElem?_withPages]
        by_cases same : index = j
        · rw [if_pos same, if_pos same, ← same, hi]
          rfl
        · rw [if_neg same, if_neg same]
      exact Checked.gives_pure.2 ⟨⟨rfl, .refl _, rfl, rfl, chunks, Heap.extends_of_blocks rfl⟩, rfl⟩
    · intro ⟨empty, several⟩
      have size : ((a.withPages index m).withPages index c.pages).chunks.size = a.chunks.size := by
        rw [size_withPages, size_withPages]
      have occupied := T.occupied (size ▸ several) c (mem_of_getElem? hi)
      rw [wf.pages.isEmpty_eq_false.2 occupied] at empty
      cases empty
  | @added heap chunk _ m grown takes =>
    have blank := PageMap.wf_ofPages a.config.chunkPages a.config.pageSize
    set b : PageMap := PageMap.ofPages a.config.chunkPages a.config.pageSize with eb
    have here : (a.chunks.push ⟨chunk, m⟩)[a.chunks.size]? = Option.some ⟨chunk, m⟩ := Array.getElem?_push_size
    have none : b.subpages = [] := by
      rw [eb]
      simp [PageMap.subpages, PageMap.ofPages]
    unfold Arena.returnRun
    refine .bind_ok (chunkAt_ok here) (.bind_ok (takes.returnRun blank) ?_)
    rw [if_pos]
    · unfold destroyChunk
      have last : (a.chunks.push ⟨chunk, b⟩)[a.chunks.size]? = Option.some ⟨chunk, b⟩ := Array.getElem?_push_size
      refine .bind_ok (chunkAt_ok ((congrArg (·[a.chunks.size]?) (modify_push ..)).trans last)) ?_
      dsimp only
      rw [none]
      refine Checked.gives_pure.2 ⟨⟨rfl, .refl _, rfl, rfl, ?_, Heap.extends_of_push grown⟩, rfl⟩
      dsimp only [withPages, count]
      rw [modify_push]
      exact removed_push ..
    · refine ⟨?_, ?_⟩
      · rw [PageMap.isEmpty, eb, PageMap.count_ofPages]
        exact beq_self_eq_true _
      · dsimp only [withPages, count]
        rw [modify_push, Array.size_push]
        omega

theorem chunkAt_gives (a : Arena) (index : Nat) :
    (a.chunkAt index).Gives fun c => a.chunks[index]? = Option.some c := by
  unfold chunkAt
  cases a.chunks[index]? with
  | none => exact Checked.gives_error
  | some c => exact Checked.gives_ok.2 rfl

/-- A run of pages was leased from the chunk at `index`. -/
structure LeasedRun (a : Arena) (length : Nat) (a' : Arena) (l : Lease) (index page : Nat) (c : PooledChunk) :
    Prop where
  took : a.Took length a' index page
  held : a'.chunks[index]? = some c
  chunk : l.chunk = c.chunk
  location : l.location = .pooled (.run (.ofNat page))
  small : page < 2 ^ 32

theorem leaseRun_leased (W : a.Wf) : (a.leaseRun size capacity).Gives fun r => ∀ l, r.2 = .ok l →
    ∃ index page c, a.LeasedRun (size / a.config.pageSize) r.1 l index page c := by
  unfold leaseRun
  refine (takeRun_took W).bind ?_
  rintro ⟨a1, answer⟩ took
  cases answer with
  | error refusal => exact Checked.gives_pure.2 fun _ e => by cases e
  | ok r =>
    obtain ⟨index, run⟩ := r
    obtain ⟨page, rfl, small, took⟩ := took _ _ rfl
    refine (chunkAt_gives a1 index).bind fun c held => .skip fun offset => .skip fun size => ?_
    refine Checked.gives_pure.2 fun l e => ?_
    cases e
    exact ⟨index, page, c, took, held, rfl, rfl, small⟩

theorem lease_leasedRun (W : a.Wf) (normal : a.classOf (a.rounded capacity) = .ok .normal) :
    (a.lease capacity).Gives fun r => ∀ l, r.2 = .ok l → ∃ b index page c,
      a.LeasedRun (a.rounded capacity / a.config.pageSize) b l index page c ∧
        r.1 = (b.countPooled .normal).count (.leased .normal) := by
  unfold lease
  refine .bind_ok normal ((leaseRun_leased W).bind ?_)
  rintro ⟨b, answer⟩ leased
  cases answer with
  | error refusal => exact Checked.gives_pure.2 fun _ e => by cases e
  | ok l =>
    obtain ⟨index, page, c, leased⟩ := leased l rfl
    refine Checked.gives_pure.2 fun _ e => ?_
    cases e
    exact ⟨b, index, page, c, leased, rfl⟩

theorem Took.activeLeases (h : a.Took length a' index page) : a'.activeLeases = a.activeLeases := by
  cases h <;> rfl

/-- The position of a chunk that is held. -/
theorem Wf.chunkIndex_eq (W : a.Wf) (hi : a.chunks[index]? = some c) : a.chunkIndex c.chunk.id = .ok index := by
  obtain ⟨j, e, hj⟩ := W.chunkIndex_ok (mem_of_getElem? hi)
  rw [e, W.distinct _ _ _ _ hj hi rfl]

theorem wf_of_granted (W : a.Wf) {r : Arena × Answered Lease} (granted : a.lease capacity = .ok r)
    (answer : r.2 = .ok l) : r.1.Wf := by
  rcases (lease_yields W capacity).gives r granted with ⟨refusal, -, refused, -⟩ | ⟨l, -, grants, -⟩
  · rw [answer] at refused
    cases refused
  · exact grants.wf

/-- The count of leases is what it was, too. -/
theorem takeBack_restores {b : Arena} {locator : Locator} (location : l.location = .pooled locator)
    (back : (b.returnPooled l.chunk.id locator).Gives fun b' =>
      a.Restored b' ∧ b'.activeLeases = a.activeLeases + 1) :
    (b.takeBack l).Gives fun a' => a.Restored a' ∧ a'.activeLeases = a.activeLeases := by
  unfold takeBack
  rw [location]
  refine back.bind fun b' ⟨restored, active⟩ => ?_
  have less : Word.sub b'.activeLeases 1 = .ok a.activeLeases := by
    rw [active]
    exact Word.sub_ok (Nat.le_add_left 1 _)
  refine .bind_ok less (Checked.gives_pure.2 ⟨?_, rfl⟩)
  exact ⟨restored.config, restored.table, restored.tinyHeads, restored.smallHeads, restored.chunks, restored.heap⟩

/-- A lease of whole pages goes back at once. -/
theorem lease_takeBack_run (W : a.Wf) (T : a.Tidy) (some : 0 < a.chunks.size)
    (normal : a.classOf (a.rounded capacity) = .ok .normal) : (a.lease capacity).Gives fun r => ∀ l,
      r.2 = .ok l → (r.1.takeBack l).Gives fun a' => a.Restored a' ∧ a'.activeLeases = a.activeLeases := by
  intro r granted l answer
  obtain ⟨b, index, page, c, leased, e⟩ := lease_leasedRun W normal r granted l answer
  have held : r.1.chunks[index]? = Option.some c := by
    rw [e]
    exact leased.held
  refine takeBack_restores leased.location ?_
  unfold returnPooled
  rw [leased.chunk]
  refine .bind_ok ((wf_of_granted W granted answer).chunkIndex_eq held) ?_
  dsimp only
  rw [Locator.slot?_run, Locator.page_run, UInt32.toNat_ofNat_of_lt' leased.small, e]
  have count : (b.countPooled .normal).activeLeases = a.activeLeases + 1 :=
    congrArg (· + 1) leased.took.activeLeases
  rw [← count]
  exact leased.took.returnRun W T some _ _

/-! ## Slots -/

/-- A size that counts listed subpages is one of slots, and its list has a front. -/
theorem front_of_freeSubpages (W : a.Wf) {n : Nat} (some : 0 < n) (counted : a.freeSubpages capacity = .ok n) :
    ∃ kind, a.classOf (a.rounded capacity) = .ok kind ∧ kind ≠ .huge ∧ kind ≠ .normal ∧
      IsSlot a.config.pageSize (a.rounded capacity) ∧
      ∃ x, a.table.front? (headOf (a.rounded capacity)) = .ok (Option.some x) := by
  obtain ⟨kind, class_eq, numbered, cases⟩ := W.config.ofSize_rounded capacity
  have kind_eq : a.classOf (a.rounded capacity) = .ok kind := classOf_ok class_eq numbered
  rcases cases with ⟨rfl, -⟩ | ⟨rfl, -⟩ | ⟨notHuge, notNormal, slot⟩
  · rw [freeSubpages, listHead?, kind_eq] at counted
    cases counted
    exact absurd some (Nat.lt_irrefl 0)
  · rw [freeSubpages, listHead?, kind_eq] at counted
    cases counted
    exact absurd some (Nat.lt_irrefl 0)
  · refine ⟨kind, kind_eq, notHuge, notNormal, slot, ?_⟩
    obtain ⟨lists, L, -⟩ := W.table.listed
    change IsSlot a.config.pageSize (a.rounded capacity) at slot
    have head := W.isHead slot
    rw [freeSubpages, W.listHead?_slot slot] at counted
    have length := (L.length_eq head).symm.trans counted
    rw [Except.ok.injEq] at length
    obtain ⟨x, rest, split⟩ := List.exists_cons_of_length_pos (length ▸ some)
    exact ⟨x, by rw [(L.ring _ head).front?_eq, split]; rfl⟩

/-- A slot of the listed subpage `x` was leased. -/
structure LeasedSlot (a : Arena) (x : SubpageId) (s : Subpage) (t : SubpageTable) (l : Lease)
    (locator : Locator) (slot : UInt32) : Prop where
  named : a.table.get? x = some s
  offers : s.Offers
  leased : a.table.lease x = .ok (t, some locator)
  chunk : s.chunk = l.chunk.id
  location : l.location = .pooled locator
  page : s.page.toNat = locator.page.toNat
  part : locator.slot? = some slot

/-- A slot that goes back at once leaves its page carved. -/
theorem LeasedSlot.returnPooled {x : SubpageId} {s : Subpage} {t : SubpageTable} {locator : Locator}
    {slot : UInt32} (h : a.LeasedSlot x s t l locator slot) (W : a.Wf)
    (back : (t.giveBack (headOf s.slotSize) x slot.toNat).Gives fun q => q.2 = true ∧ a.table.Alike id q.1)
    (active : Nat) (counters : Counters) :
    (Arena.returnPooled { a with table := t, activeLeases := active, counters := counters } l.chunk.id
      locator).Gives fun a'' => a.Restored a'' ∧ a''.activeLeases = active := by
  obtain ⟨c, held, chunk, carved⟩ := W.recorded x s h.named
  obtain ⟨index, found, hi⟩ := W.chunkIndex_ok held
  obtain ⟨pageSize, -, isSlot⟩ := W.subpages x s h.named
  have few := Subpage.slots_lt (W.table.subpages x s h.named) (by rw [pageSize]; exact W.pageSize_le)
  obtain ⟨_, _, s', -, -, -, -, replaces, leases⟩ :=
    (SubpageTable.lease_yields W.table h.named h.offers (Nat.le_of_lt few)).gives _ h.leased
  have named : t.get? x = Option.some s' := (replaces.get? x).trans (if_pos rfl)
  set b : Arena := { a with table := t, activeLeases := active, counters := counters } with eb
  have head : b.listHead s'.slotSize = .ok (headOf s.slotSize) := by
    rw [leases.same.slotSize]
    exact W.listHead_ok (isSlot h.offers.active)
  have returned : (b.returnSlot index s.page.toNat slot.toNat).Gives fun r =>
      ∃ t', r = ({ b with table := t' }, true) ∧ a.table.Alike id t' := by
    unfold returnSlot
    refine .bind_ok (chunkAt_ok hi) (.bind_ok (a := Option.some x) (by rw [PageMap.subpageAt, carved]) ?_)
    refine .bind_ok (SubpageTable.get_ok named) (.bind_ok head (back.bind ?_))
    rintro ⟨t', stays⟩ ⟨rfl, alike⟩
    exact Checked.gives_pure.2 ⟨t', rfl, alike⟩
  unfold Arena.returnPooled
  rw [← h.chunk, ← chunk]
  refine .bind_ok found ?_
  dsimp only
  rw [h.part, ← h.page]
  refine returned.bind ?_
  rintro _ ⟨t', rfl, alike⟩
  exact Checked.gives_pure.2 ⟨⟨rfl, alike, rfl, rfl, rfl, Heap.extends_of_blocks rfl⟩, rfl⟩

theorem lease_leasedSlot (W : a.Wf) {n : Nat} (some : 0 < n) (counted : a.freeSubpages capacity = .ok n) :
    (a.lease capacity).Gives fun r => ∀ l, r.2 = .ok l → ∃ x s t locator slot counters,
      a.LeasedSlot x s t l locator slot ∧ a.table.front? (headOf s.slotSize) = .ok (Option.some x) ∧
        r.1 = { a with table := t, activeLeases := a.activeLeases + 1, counters := counters } := by
  obtain ⟨kind, kind_eq, notHuge, notNormal, slot, x, front⟩ := front_of_freeSubpages W some counted
  obtain ⟨found, eq, first⟩ := SubpageTable.front?_yields W.table (W.isHead slot)
  rw [front, Except.ok.injEq] at eq
  subst eq
  obtain ⟨s, hs, offers, listed⟩ := first
  have size_eq : s.slotSize = a.rounded capacity :=
    ((W.subpages x s hs).2.2 offers.active).eq_of_slotIndex slot (congrArg SubpageId.node listed)
  obtain ⟨⟨t, _⟩, leased, locator, rfl, l, slotLease, -, location, takes⟩ := leaseAt_yields W hs offers capacity
  have listed : a.leaseListed? (headOf (a.rounded capacity)) (a.rounded capacity) =
      .ok (Option.some (t, x, locator)) := by
    unfold leaseListed?
    simp only [front, SubpageTable.get_ok hs, leased, Checked.guard_ok (beq_iff_eq.2 size_eq), Checked.ok_bind]
    rfl
  have granted : a.grant kind (a.rounded capacity) capacity = .ok ({ a with table := t }, .ok l) := by
    rw [grant_slot notHuge notNormal, leaseSlot, W.listHead_ok slot, Checked.ok_bind, listed, Checked.ok_bind]
    dsimp only
    rw [slotLease]
    rfl
  unfold lease
  refine .bind_ok kind_eq (.bind_ok granted (Checked.gives_pure.2 fun _ e => ?_))
  cases e
  obtain ⟨_, -, part, -⟩ := takes.taken
  rw [Lease.slot?_eq location, Option.map_eq_some_iff] at part
  obtain ⟨number, part, -⟩ := part
  refine ⟨x, s, t, locator, number, a.counters.count (.leased kind), ⟨hs, offers, leased, takes.bears.chunk, location,
    takes.bears.page.trans (Lease.page_eq location), part⟩, by rw [size_eq]; exact front, ?_⟩
  rw [countPooled, if_neg notHuge]
  rfl

/-- A lease of a slot goes back at once. -/
theorem lease_takeBack_slot (W : a.Wf) (I : a.table.IdleLast)
    (kept : ∀ x s, a.active? x = some s → s.Idle → a.table.keepLast = true) {n : Nat} (some : 0 < n)
    (counted : a.freeSubpages capacity = .ok n) : (a.lease capacity).Gives fun r => ∀ l,
      r.2 = .ok l → (r.1.takeBack l).Gives fun a' => a.Restored a' ∧ a'.activeLeases = a.activeLeases := by
  intro r granted l answer
  obtain ⟨x, s, t, locator, slot, counters, leased, front, e⟩ :=
    lease_leasedSlot W some counted r granted l answer
  have hs := leased.named
  obtain ⟨pageSize, -, isSlot⟩ := W.subpages x s hs
  have few := Subpage.slots_lt (W.table.subpages x s hs) (by rw [pageSize]; exact W.pageSize_le)
  have undone := SubpageTable.lease_giveBack_alike W.table hs leased.offers (Nat.le_of_lt few) front fun idle =>
    ⟨kept x s (active?_eq_some.2 ⟨hs, leased.offers.active⟩) idle,
      I.alone W.table (W.isHead (isSlot leased.offers.active)) front hs idle⟩
  rw [e]
  exact takeBack_restores leased.location
    (leased.returnPooled W (undone _ leased.leased locator rfl slot leased.part) _ _)

/-! ## Both -/

/-- Whether a request is served from whole pages, or from a list that has a subpage to offer. -/
def ServedAgain (a : Arena) (capacity : Nat) : Prop :=
  a.classOf (a.rounded capacity) = .ok .normal ∨ ∃ n, 0 < n ∧ a.freeSubpages capacity = .ok n

/-- A lease of pages, or of a slot of a listed page, goes back at once. -/
theorem lease_takeBack (W : a.Wf) (T : a.Tidy) (I : a.table.IdleLast)
    (kept : ∀ x s, a.active? x = some s → s.Idle → a.table.keepLast = true) (some : 0 < a.chunks.size)
    (served : a.ServedAgain capacity) : (a.lease capacity).Gives fun r => ∀ l,
      r.2 = .ok l → (r.1.takeBack l).Gives fun a' => a.Restored a' ∧ a'.activeLeases = a.activeLeases := by
  rcases served with normal | ⟨n, listed, counted⟩
  · exact lease_takeBack_run W T some normal
  · exact lease_takeBack_slot W I kept listed counted

end Arena

/-! ## What is left of it -/

/-- Numbers that go up by `spare` from the memory `first` on, and from the chunk on that follows it. Nothing is
said of the counters. -/
def Likeness.shifted (first spare : Nat) : Likeness where
  chunk n := if n ≤ first then n else n + spare
  memory b := if b < first then b else b + spare
  counters _ _ := True
  chunk_injective n m same := by
    dsimp only at same
    split at same <;> split at same <;> omega
  memory_injective b c same := by
    dsimp only at same
    split at same <;> split at same <;> omega
  count _ _ := True.intro
  waited _ _ _ := True.intro

/-- A chunk on a former memory keeps its numbers. -/
theorem Chunk.renumbered_of_former {c : Chunk} {first : Nat} (named : c.id = c.memory + 1) (former : c.memory < first)
    (spare : Nat) : c.renumbered (.shifted first spare) = c := by
  have chunk : (Likeness.shifted first spare).chunk c.id = c.id := if_pos (named ▸ former)
  have memory : (Likeness.shifted first spare).memory c.memory = c.memory := if_pos former
  rw [renumbered, chunk, memory]

/-- The heap on a system that answers otherwise. -/
def Heap.withSupply (h : Heap) (refuses : Supply) : Heap := { h with refuses := refuses }

/-- Whether the system is going to refuse the attempt that comes after `n` others. -/
def Heap.willRefuse (h : Heap) (n size : Nat) : Bool := h.refuses (h.attempts + n) size

namespace Arena

variable {a a' : Arena}

/-- The chunks that are held keep their numbers. -/
theorem Wf.renumbered (W : a.Wf) {c : PooledChunk} (held : c ∈ a.chunks) (spare : Nat) :
    c.renumbered (.shifted a.heap.blocks.size spare) = c := by
  have wf := W.chunks c held
  rw [PooledChunk.renumbered, Chunk.renumbered_of_former wf.named wf.inside]

/-- So do those of the leases. -/
theorem Backs.renumbered {l : Lease} (b : a.Backs l) (W : a.Wf) (spare : Nat) :
    l.renumbered (.shifted a.heap.blocks.size spare) = l := by
  have named : l.chunk.id = l.chunk.memory + 1 := by
    cases b with
    | run held chunk => rw [chunk]; exact (W.chunks _ held).named
    | slot held chunk => rw [chunk]; exact (W.chunks _ held).named
    | own _ _ named => exact named
  rw [Lease.renumbered, Chunk.renumbered_of_former named (b.fits W).2.1]

/-- What is left of a lease that was granted and taken back makes no difference, if the system answers alike
from now on. -/
theorem Restored.alike (h : a.Restored a') (W : a.Wf) (W' : a'.Wf) (active : a'.activeLeases = a.activeLeases)
    {refuses : Supply}
    (answers : ∀ n size, (a.heap.withSupply refuses).willRefuse n size = a'.heap.willRefuse n size) :
    Arena.Alike (.shifted a.heap.blocks.size (a'.heap.blocks.size - a.heap.blocks.size))
      { a with heap := a.heap.withSupply refuses } a' where
  config := ⟨a.config.recyclerCapacity, h.config⟩
  table := by
    refine h.table.congr fun i s subpage => ?_
    have named : a.table.get? ⟨i, (a.table.node i).generation⟩ = some s :=
      SubpageTable.get?_eq_some.2 ⟨subpage, rfl⟩
    obtain ⟨c, held, chunk, -⟩ := W.recorded _ s named
    rw [← chunk]
    exact congrArg (fun c : PooledChunk => c.chunk.id) (W.renumbered held _)
  tinyHeads := h.tinyHeads
  smallHeads := h.smallHeads
  chunks := by
    rw [h.chunks]
    refine Array.ext_getElem? fun i => ?_
    rw [Array.getElem?_map]
    cases found : a.chunks[i]? with
    | none => rfl
    | some c => exact congrArg Option.some (W.renumbered (mem_of_getElem? found) _).symm
  activeLeases := active
  next n := by
    have size := h.heap.size
    rw [W'.next]
    change (if a.nextChunkId + n ≤ _ then _ else _) = _
    rw [W.next, if_neg (by omega)]
    omega
  heap := by
    have size := h.heap.size
    refine ⟨fun b => ?_, fun n => ?_, fun n size => (answers n size).symm⟩
    · change a'.heap.get (if b < _ then b else _) = a.heap.get b
      split
      · rename_i inside
        exact h.heap.get b inside
      · rename_i outside
        rw [Heap.get, Heap.get, Array.getElem?_eq_none (by omega), Array.getElem?_eq_none (by omega)]
    · change (if a.heap.blocks.size + n < a.heap.blocks.size then _ else a.heap.blocks.size + n + _) = _
      rw [if_neg (by omega)]
      omega
  counters := True.intro

end Arena

end BufferPool
