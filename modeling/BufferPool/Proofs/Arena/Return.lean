import BufferPool.Arena.Return
import BufferPool.Proofs.Arena.Books

/-!
# Leases taken back

Taking a lease back passes every check of the bookkeeping, keeps the arena well formed and leaves every
lease accounted for that is apart from the one taken back (`Arena.Returns`); its place is leased out no
more. A chunk is destroyed only when no run is left in it, so no lease on it is left either.
-/

namespace BufferPool.Arena

open Size

variable {a a' : Arena} {l : Lease} {c d : PooledChunk} {index page slot : Nat} {id : SubpageId}
  {s : Subpage} {t : SubpageTable}

/-! ## Destroying a chunk -/

/-- The last element takes the place of the one that is removed. -/
theorem getElem?_removed {xs : Array PooledChunk} {i : Nat} (hi : i < xs.size) (j : Nat) :
    (xs.swapIfInBounds i (xs.size - 1)).pop[j]? =
      if j < xs.size - 1 then xs[if j = i then xs.size - 1 else j]? else none := by
  have last : xs.size - 1 < xs.size := by omega
  rw [Array.getElem?_pop, Array.swapIfInBounds_def, dif_pos hi, dif_pos last, Array.size_swap,
    Array.getElem?_swap]
  split
  · by_cases here : j = i
    · rw [if_pos here, if_neg (by omega), if_pos here.symm]
      simp [last]
    · rw [if_neg here, if_neg (by omega), if_neg (Ne.symm here)]
  · rfl

theorem mem_removed (W : a.Wf) (hi : a.chunks[index]? = some c) :
    d ∈ (a.chunks.swapIfInBounds index (a.chunks.size - 1)).pop ↔
      d ∈ a.chunks ∧ d.chunk.id ≠ c.chunk.id := by
  obtain ⟨inside, -⟩ := Array.getElem?_eq_some_iff.1 hi
  constructor
  · intro hd
    obtain ⟨j, hj⟩ := Array.mem_iff_getElem?.1 hd
    rw [getElem?_removed inside] at hj
    split at hj
    · rename_i lt
      refine ⟨mem_of_getElem? hj, fun e => ?_⟩
      have := W.distinct _ _ _ _ hj hi e
      split at this <;> omega
    · cases hj
  · intro ⟨hd, ne⟩
    obtain ⟨j, hj⟩ := Array.mem_iff_getElem?.1 hd
    obtain ⟨lt, -⟩ := Array.getElem?_eq_some_iff.1 hj
    have other : j ≠ index := by
      intro equal
      subst equal
      rw [hi] at hj
      exact ne (congrArg (fun c => c.chunk.id) (Option.some.inj hj)).symm
    by_cases last : j = a.chunks.size - 1
    · refine Array.mem_iff_getElem?.2 ⟨index, ?_⟩
      rw [getElem?_removed inside, if_pos (by omega), if_pos rfl, ← last]
      exact hj
    · refine Array.mem_iff_getElem?.2 ⟨j, ?_⟩
      rw [getElem?_removed inside, if_pos (by omega), if_neg other]
      exact hj

theorem distinct_removed (W : a.Wf) (hi : a.chunks[index]? = some c) (j k : Nat) (d e : PooledChunk)
    (hj : (a.chunks.swapIfInBounds index (a.chunks.size - 1)).pop[j]? = some d)
    (hk : (a.chunks.swapIfInBounds index (a.chunks.size - 1)).pop[k]? = some e)
    (same : d.chunk.id = e.chunk.id) : j = k := by
  obtain ⟨inside, -⟩ := Array.getElem?_eq_some_iff.1 hi
  rw [getElem?_removed inside] at hj hk
  split at hj
  · split at hk
    · have := W.distinct _ _ _ _ hj hk same
      split at this <;> split at this <;> omega
    · cases hk
  · cases hj

theorem mem_subpages {m : PageMap} : id ∈ m.subpages ↔ ∃ page : Nat, m.carved[page]? = some (some id) := by
  simp only [PageMap.subpages, List.mem_filterMap, Array.mem_toList_iff, id_eq, exists_eq_right,
    Array.mem_iff_getElem?]

/-- No subpage is recorded for two pages. -/
theorem nodup_subpages (wf : c.Wf a.config a.heap a.table) : c.pages.subpages.Nodup := by
  refine List.pairwise_filterMap.2 (List.pairwise_iff_getElem.2 fun i j hi hj lt x hx y hy e => ?_)
  subst e
  simp only [id_eq, Array.getElem_toList, Array.length_toList] at hx hy hi hj
  have carved : ∀ {k : Nat} (hk : k < c.pages.carved.size), c.pages.carved[k] = some x →
      ∃ s, a.table.get? x = some s ∧ s.page.toNat = k := by
    intro k hk h
    obtain ⟨s, hs, -, page, -⟩ := wf.carved k x (by rw [Array.getElem?_eq_getElem hk, h])
    exact ⟨s, hs, page⟩
  obtain ⟨s, hs, pi⟩ := carved hi hx
  obtain ⟨s', hs', pj⟩ := carved hj hy
  rw [hs] at hs'
  cases hs'
  omega

/-- Subpages were removed; each left its node vacant and one generation older. -/
structure Removed (t : SubpageTable) (ids : List SubpageId) (t' : SubpageTable) : Prop where
  wf : t'.Wf headOf
  get? : ∀ x, t'.get? x = if x ∈ ids then none else t.get? x
  heads : ∀ h, t'.IsHead h ↔ t.IsHead h
  keepLast : t'.keepLast = t.keepLast
  occupant : ∀ n, (t'.node n).occupant =
    if n ∈ ids.map SubpageId.node then .vacant else (t.node n).occupant
  older : ∀ x ∈ ids, (t'.node x.node).generation = x.generation + 1
  aside : ∀ n ∉ ids.map SubpageId.node, (t'.node n).generation = (t.node n).generation
  idleLast : t.IdleLast → t'.IdleLast

/-- Subpages that are not carved are removed one after the other. -/
theorem removeAll_yields : ∀ {ids : List SubpageId} {t : SubpageTable}, t.Wf headOf → ids.Nodup →
    (∀ id ∈ ids, ∃ s, t.get? id = some s ∧ s.active = false) →
    (removeAll t ids).Yields (Removed t ids)
  | [], t, wf, _, _ => Checked.yields_ok.2 ⟨wf, fun x => by simp, fun _ => Iff.rfl, rfl, fun n => by simp,
    fun x hx => absurd hx List.not_mem_nil, fun _ _ => rfl, id⟩
  | id :: rest, t, wf, nodup, idle => by
    obtain ⟨s, hs, inactive⟩ := idle id List.mem_cons_self
    obtain ⟨new, nodup⟩ := List.nodup_cons.1 nodup
    have apart : id.node ∉ rest.map SubpageId.node := by
      intro shared
      obtain ⟨x, hx, node⟩ := List.mem_map.1 shared
      obtain ⟨u, hu, -⟩ := idle x (List.mem_cons_of_mem _ hx)
      have same := (SubpageTable.holds_of_get? hu).eq_of_node (SubpageTable.holds_of_get? hs) node
      exact new (same ▸ hx)
    unfold removeAll
    apply ((SubpageTable.remove_yields wf hs (Subpage.not_offers inactive)).and_gives
      (SubpageTable.remove_keeps_idleLast wf hs (Subpage.not_offers inactive))).bind
    intro ⟨t1, _⟩ ⟨⟨replaces, wf1⟩, idleLast⟩
    refine (removeAll_yields wf1 nodup fun x hx => ?_).mono ?_
    · obtain ⟨u, hu, inactive'⟩ := idle x (List.mem_cons_of_mem _ hx)
      refine ⟨u, ?_, inactive'⟩
      rw [replaces.get?, if_neg]
      · exact hu
      · intro equal
        subst equal
        exact new hx
    · intro t2 removed
      refine ⟨removed.wf, fun x => ?_, fun h => (removed.heads h).trans (replaces.heads h),
        removed.keepLast.trans replaces.keepLast, fun n => ?_, fun x hx => ?_, fun n hn => ?_,
        fun I => removed.idleLast (idleLast I)⟩
      · rw [removed.get?, replaces.get?]
        by_cases here : x = id
        · simp [here]
        · simp [here]
      · rw [removed.occupant, replaces.occupant]
        by_cases here : n = id.node
        · simp [here]
        · simp [here]
      · rcases List.mem_cons.1 hx with rfl | later
        · rw [removed.aside _ apart, replaces.generation, if_pos rfl]
          rfl
        · exact removed.older x later
      · rw [List.map_cons, List.mem_cons, not_or] at hn
        rw [removed.aside n hn.2, replaces.generation, if_neg hn.1]

/-- The subpages that are recorded in a chunk are exactly those of the chunk. -/
theorem mem_subpages_iff (W : a.Wf) (held : c ∈ a.chunks) (hs : a.table.get? id = some s) :
    id ∈ c.pages.subpages ↔ s.chunk = c.chunk.id := by
  constructor
  · intro hid
    obtain ⟨page, carved⟩ := mem_subpages.1 hid
    exact (W.of_carved held carved hs).1
  · intro chunk
    exact mem_subpages.2 ⟨_, W.carved_of_get? hs held chunk.symm⟩

/-- No subpage of a chunk without a run is carved. -/
theorem idle_of_empty (W : a.Wf) (held : c ∈ a.chunks) (empty : ∀ page, c.pages.run page = 0)
    (hid : id ∈ c.pages.subpages) : ∃ s, a.table.get? id = some s ∧ s.active = false := by
  obtain ⟨page, carved⟩ := mem_subpages.1 hid
  obtain ⟨s, hs, -, -, one⟩ := (W.chunks c held).carved page id carved
  refine ⟨s, hs, ?_⟩
  cases active : s.active with
  | false => rfl
  | true =>
    have := one active
    rw [empty] at this
    cases this

/-- No lease is on a chunk without a run. -/
theorem Backs.ne_empty (W : a.Wf) (b : a.Backs l) (held : c ∈ a.chunks)
    (empty : ∀ page, c.pages.run page = 0) (hd : d ∈ a.chunks) (chunk : l.chunk = d.chunk) :
    d.chunk.id ≠ c.chunk.id := by
  intro e
  have dc := W.eq_of_id hd held e
  subst dc
  have := (b.starts W hd chunk).2
  rw [empty] at this
  cases this

/-- What giving up an empty chunk, or nothing, does. -/
structure Spares (a a' : Arena) : Prop where
  wf : a'.Wf
  kept : ∀ k, a.Backs k → a'.Backs k
  config : a'.config = a.config
  heap : a'.heap = a.heap
  leases : a'.activeLeases = a.activeLeases
  starts : a'.starts = a.starts
  active : a'.active? = a.active?
  shrinks : a.Shrinks a'
  returned : a'.counters.returned = a.counters.returned
  idleLast : a.table.IdleLast → a'.table.IdleLast

/-- A chunk without a run is destroyed, and no lease is on it; the last one takes its place. -/
theorem destroyChunk_yields (W : a.Wf) (hi : a.chunks[index]? = some c)
    (empty : ∀ page, c.pages.run page = 0) : (a.destroyChunk index).Yields fun a' =>
      a.Spares a' ∧ a'.chunks = (a.chunks.swapIfInBounds index (a.chunks.size - 1)).pop := by
  have held := mem_of_getElem? hi
  have old := W.chunks c held
  unfold destroyChunk
  refine .bind_ok (chunkAt_ok hi) ((removeAll_yields W.table (nodup_subpages old) fun id hid =>
    idle_of_empty W held empty hid).bind ?_)
  intro t removed
  have get := removed.get?
  have stays : ∀ d x, d ∈ a.chunks → d.chunk.id ≠ c.chunk.id → ∀ page : Nat,
      d.pages.carved[page]? = some (some x) → t.get? x = a.table.get? x := by
    intro d x hd ne page carved
    obtain ⟨s, hs, chunk, -⟩ := (W.chunks d hd).carved page x carved
    rw [get, if_neg]
    rw [mem_subpages_iff W held hs, chunk]
    exact ne
  refine Checked.yields_pure.2 ⟨⟨(sameBooks_count _ _).wf ⟨W.config, W.tiny, W.small,
    fun i hi => (removed.heads _).2 (W.heads i hi), removed.wf, fun x s hs => ?_, fun d hd => ?_,
    distinct_removed W hi, fun x s hs => ?_, W.next, W.bounded⟩,
    fun k b => (sameBooks_count _ _).backs ?_, rfl, rfl, rfl, ?_, funext fun x => ?_,
    ⟨rfl, fun d hd => ⟨d, ((mem_removed W hi).1 hd).1, rfl⟩, fun x s hs => ?_, fun n free => ?_,
      fun n => ?_, removed.keepLast⟩, rfl, removed.idleLast⟩, rfl⟩
  · rw [get] at hs
    split at hs
    · cases hs
    · exact W.subpages x s hs
  · obtain ⟨hd, ne⟩ := (mem_removed W hi).1 hd
    have old := W.chunks d hd
    refine { old with carved := fun page x carved => ?_ }
    rw [stays d x hd ne page carved]
    exact old.carved page x carved
  · rw [get] at hs
    split at hs
    · cases hs
    · rename_i other
      obtain ⟨d, hd, chunk, carved⟩ := W.recorded x s hs
      refine ⟨d, (mem_removed W hi).2 ⟨hd, fun e => other ?_⟩, chunk, carved⟩
      exact (mem_subpages_iff W held hs).2 (chunk.symm.trans e)
  · have apart := fun d hd => b.ne_empty W held empty (d := d) hd
    cases b with
    | @run d r held' chunk location whole starts plain offset size =>
      have ne := apart d held' chunk
      refine .run ((mem_removed W hi).2 ⟨held', ne⟩) chunk location whole starts
        (fun x s carved hs => ?_) offset size
      rw [stays d x held' ne _ carved] at hs
      exact plain x s carved hs
    | @slot d r j x s held' chunk location part carved named active lent offset size =>
      have ne := apart d held' chunk
      exact .slot ((mem_removed W hi).2 ⟨held', ne⟩) chunk location part carved
        ((stays d x held' ne _ carved).trans named) active lent offset size
    | own location unpooled named inside memory apart offset size =>
      exact .own location unpooled named inside memory
        (fun d hd => apart d ((mem_removed W hi).1 hd).1) offset size
  · ext ⟨chunk, page⟩
    constructor
    · intro ⟨d, hd, rest⟩
      exact ⟨d, ((mem_removed W hi).1 hd).1, rest⟩
    · intro ⟨d, hd, id, run⟩
      refine ⟨d, (mem_removed W hi).2 ⟨hd, fun e => ?_⟩, id, run⟩
      rw [W.eq_of_id hd held e, empty] at run
      exact Nat.lt_irrefl 0 run
  · change (t.get? x).filter Subpage.active = a.active? x
    rw [get]
    split
    · rename_i mem
      obtain ⟨s, hs, idle⟩ := idle_of_empty W held empty mem
      exact (active?_eq_none_of_idle hs idle).symm
    · rfl
  · by_cases mem : x ∈ c.pages.subpages
    · refine .inr ⟨(removed.occupant _).trans (if_pos (List.mem_map_of_mem mem)), removed.older x mem,
        fun d hd => ?_⟩
      rw [(mem_subpages_iff W held hs).1 mem]
      exact ((mem_removed W hi).1 hd).2
    · exact .inl ⟨s, (get x).trans ((if_neg mem).trans hs), .refl s⟩
  · have other : n ∉ c.pages.subpages.map SubpageId.node := by
      intro mem
      obtain ⟨x, hx, rfl⟩ := List.mem_map.1 mem
      obtain ⟨s, hs, -⟩ := idle_of_empty W held empty hx
      exact (SubpageTable.holds_of_get? hs).occupied free
    exact ⟨(removed.occupant n).trans ((if_neg other).trans free), removed.aside n other⟩
  · by_cases mem : n ∈ c.pages.subpages.map SubpageId.node
    · refine .inr ⟨(removed.occupant n).trans (if_pos mem), ?_⟩
      obtain ⟨x, hx, rfl⟩ := List.mem_map.1 mem
      obtain ⟨s, hs, -⟩ := idle_of_empty W held empty hx
      rw [(SubpageTable.holds_of_get? hs).generation]
      exact removed.older x hx
    · exact .inl (removed.aside n mem)

/-! ## Runs and slots -/

/-- What returning the run at page `page` of `c` does. -/
structure ReturnsRun (a : Arena) (c : PooledChunk) (page : Nat) (a' : Arena) : Prop where
  wf : a'.Wf
  kept : ∀ k, a.Backs k → (k.chunk = c.chunk → k.page ≠ page) → a'.Backs k
  config : a'.config = a.config
  heap : a'.heap = a.heap
  leases : a'.activeLeases = a.activeLeases
  starts : a'.starts = a.starts \ {(c.chunk.id, page)}
  active : a'.active? = a.active?
  shrinks : a.Shrinks a'
  tends : a.Tends a'
  returned : a'.counters.returned = a.counters.returned

theorem Spares.refl (W : a.Wf) : a.Spares a := ⟨W, fun _ b => b, rfl, rfl, rfl, rfl, rfl, .refl a, rfl, id⟩

/-- A run goes back to its chunk, and the chunk with it if it is empty and not the only one. -/
theorem returnRun_yields (W : a.Wf) (hi : a.chunks[index]? = some c) (starts : 0 < c.pages.run page)
    (plain : ∀ id s, c.pages.carved[page]? = some (some id) → a.table.get? id = some s →
      s.active = false) :
    (a.returnRun index page).Yields (a.ReturnsRun c page) := by
  have old := W.chunks c (mem_of_getElem? hi)
  unfold returnRun
  refine .bind_ok (chunkAt_ok hi) ((PageMap.returnRun_yields old.pages starts).bind ?_)
  intro m ⟨wf, same, run⟩
  have W1 : (a.withPages index m).Wf := W.withPages hi same wf fun p id s carved hs active => by
    obtain ⟨-, -, one⟩ := W.of_carved (mem_of_getElem? hi) carved hs
    rw [run, if_neg, one active]
    intro equal
    subst equal
    rw [plain id s carved hs] at active
    cases active
  have kept : ∀ k, a.Backs k → (k.chunk = c.chunk → k.page ≠ page) → (a.withPages index m).Backs k :=
    fun k b other => b.withPages W hi same fun chunk _ => by rw [run, if_neg (other chunk)]
  have spares : (if m.isEmpty ∧ 1 < (a.withPages index m).chunks.size then
      (a.withPages index m).destroyChunk index else pure (a.withPages index m)).Yields fun a' =>
        (a.withPages index m).Spares a' ∧ a.Tends a' := by
    split
    · rename_i outcome
      obtain ⟨empty, several⟩ := outcome
      have hi' : (a.withPages index m).chunks[index]? = some { c with pages := m } := by
        rw [getElem?_withPages, if_pos rfl, hi]
        rfl
      apply (destroyChunk_yields W1 hi' (wf.run_of_isEmpty empty)).mono
      intro a' ⟨h, chunks⟩
      rw [size_withPages] at several
      refine ⟨h, tends_dropped several ?_ (fun d hd => ?_) h.config h.idleLast⟩
      · rw [chunks, Array.size_pop, Array.size_swapIfInBounds, size_withPages]
      · rw [chunks, mem_removed W1 hi'] at hd
        exact ((mem_withPages W hi).1 hd.1).elim (fun here => absurd (here ▸ rfl) hd.2) And.left
    · rename_i stays
      rw [size_withPages, and_comm, not_and, Bool.not_eq_true] at stays
      exact Checked.yields_pure.2 ⟨.refl W1, tends_withPages hi fun several _ =>
        wf.isEmpty_eq_false.1 (stays several)⟩
  apply spares.mono
  intro a' ⟨h, tends⟩
  exact ⟨h.wf, fun k b other => h.kept k (kept k b other), h.config, h.heap, h.leases,
    h.starts.trans (starts_returned W hi run), h.active, shrinks_withPages.trans h.shrinks, tends,
    h.returned⟩

/-- What returning slot `slot` of the subpage `id` of `c` does; `stays` is whether it stays carved. -/
structure ReturnsSlot (a : Arena) (c : PooledChunk) (page slot : Nat) (id : SubpageId)
    (slotSize : Nat) (a' : Arena) (stays : Bool) : Prop where
  wf : a'.Wf
  config : a'.config = a.config
  chunks : a'.chunks = a.chunks
  heap : a'.heap = a.heap
  leases : a'.activeLeases = a.activeLeases
  subpage : ∃ s, a'.table.get? id = some s ∧ s.active = stays
  regains : ∀ s, a.table.get? id = some s → ∃ s', Subpage.Regains s slot stays s' ∧
    a.table.Retention headOf id s s' stays ∧
    a'.active? = Function.update a.active? id (if stays then some s' else none)
  shrinks : a.Shrinks a'
  returned : a'.counters.returned = a.counters.returned
  idleLast : a.table.IdleLast → a'.table.IdleLast
  kept : ∀ k, a.Backs k →
    (k.chunk = c.chunk → k.page = page → ∀ j, k.slot? = some j → j ≠ slot ∨ slotSize = 0) →
    a'.Backs k ∧ (stays = false → k.chunk = c.chunk → k.page ≠ page)

theorem returnSlot_yields (W : a.Wf) (hi : a.chunks[index]? = some c)
    (carved : c.pages.carved[page]? = some (some id)) (hs : a.table.get? id = some s)
    (active : s.active = true) (lent : s.Lends slot) :
    (a.returnSlot index page slot).Yields fun r =>
      a.ReturnsSlot c page slot id s.slotSize r.1 r.2 := by
  have held := mem_of_getElem? hi
  have isSlot := (W.subpages id s hs).2.2 active
  obtain ⟨chunk, number, one⟩ := W.of_carved held carved hs
  unfold returnSlot
  refine .bind_ok (chunkAt_ok hi) (.bind_ok (a := some id) (by rw [PageMap.subpageAt, carved]) ?_)
  refine .bind_ok (SubpageTable.get_ok hs) (.bind_ok (W.listHead_ok isSlot) ?_)
  apply ((SubpageTable.giveBack_yields W.table hs active lent).and_gives
    (SubpageTable.giveBack_keeps_idleLast W.table hs active lent
      (W.two_le_slots (active?_eq_some.2 ⟨hs, active⟩)))).bind
  intro ⟨t, stays⟩ ⟨⟨s', wf, replaces, regains, retention⟩, idleLast⟩
  have W' : { a with table := t }.Wf := W.withTable hs replaces wf regains.same fun _ => by
    rw [regains.slotSize]
    refine ⟨isSlot, fun d hd e => ?_⟩
    rw [W.eq_of_id hd held (e.trans chunk), number]
    exact one active
  refine Checked.yields_pure.2 ⟨W', rfl, rfl, rfl, rfl, ⟨s', ?_, regains.active⟩, fun u hu => ?_,
    shrinks_withTable hs replaces regains.same, rfl, idleLast, fun k b other => ⟨?_, ?_⟩⟩
  · exact (replaces.get? _).trans (if_pos rfl)
  · rw [hs] at hu
    cases hu
    refine ⟨s', regains, retention, ?_⟩
    rw [active?_withTable replaces, Option.filter_some, regains.active]
  · refine b.withTable W hs replaces (fun _ sameChunk samePage j hj lends => ?_)
      fun idle => by rw [active] at idle; cases idle
    have pooled : k.location ≠ .unpooled := by
      intro location
      rw [Lease.slot?, location] at hj
      cases hj
    obtain ⟨d, held', kd, -⟩ := b.within W pooled
    have dc : d = c := W.eq_of_id held' held (by rw [← kd, sameChunk, chunk])
    have keeps := regains.kept j lends (other (by rw [kd, dc]) (samePage.trans number) j hj)
    refine ⟨?_, regains.slotSize, keeps⟩
    cases stays with
    | true => exact regains.active
    | false =>
      obtain ⟨none, some⟩ := regains.idle rfl
      rcases keeps with ⟨zero, -⟩ | mem
      · exact absurd (regains.slotSize.symm.trans zero) some
      · rw [none] at mem
        exact absurd mem (Finset.notMem_empty j)
  · intro gone sameChunk samePage
    obtain ⟨j, hj, lends, -⟩ := b.of_carved W held carved hs active sameChunk samePage
    obtain ⟨none, some⟩ := regains.idle gone
    rcases regains.kept j lends (other sameChunk samePage j hj) with ⟨zero, -⟩ | mem
    · exact some (regains.slotSize.symm.trans zero)
    · rw [none] at mem
      exact Finset.notMem_empty j mem

/-! ## Leases -/

/-- What taking a lease back does. -/
structure Returns (a : Arena) (l : Lease) (a' : Arena) : Prop where
  wf : a'.Wf
  kept : ∀ k, a.Backs k → k.Apart l → a'.Backs k
  config : a'.config = a.config
  heap : a'.heap = a.heap
  uncarves : a.Uncarves l a'
  shrinks : a.Shrinks a'
  tends : a.Tends a'

/-- A lease that went back, and was counted. -/
theorem Returns.removes (h : a.Returns l a')
    (returned : a'.counters.returned = a.counters.returned + 1) : a.Removes l a' :=
  ⟨h.uncarves, h.shrinks, h.tends, returned⟩

theorem not_apart {k : Lease} (chunk : k.chunk = l.chunk) (offset : k.offset = l.offset)
    (size : k.maxLength = l.maxLength) (positive : 0 < l.maxLength) : ¬ k.Apart l := by
  intro outcome
  rcases outcome with h | h | h
  · exact h (by rw [chunk])
  · omega
  · omega

/-- A run goes back. -/
theorem returns_run (W : a.Wf) (held : c ∈ a.chunks) (hi : a.chunks[index]? = some c)
    (starts : 0 < c.pages.run page)
    (plain : ∀ id s, c.pages.carved[page]? = some (some id) → a.table.get? id = some s →
      s.active = false) (chunk : l.chunk = c.chunk) (pooled : l.location ≠ .unpooled)
    (whole : l.slot? = none) (here : l.page = page) (offset : l.offset = page * a.config.pageSize)
    (size : l.maxLength = c.pages.run page * a.config.pageSize) :
    (a.returnRun index page).Yields fun a' => a.Returns l a' ∧ a'.activeLeases = a.activeLeases ∧
      a'.counters.returned = a.counters.returned := by
  apply (returnRun_yields W hi starts plain).mono
  intro a' h
  refine ⟨⟨h.wf, fun k b apart => h.kept k b fun sameChunk samePage => ?_, h.config, h.heap,
    .run pooled whole ?_ h.active, h.shrinks, h.tends⟩, h.leases, h.returned⟩
  · obtain ⟨offset', size'⟩ := b.of_plain W held plain sameChunk samePage
    refine not_apart (sameChunk.trans chunk.symm) (offset'.trans offset.symm) (size'.trans size.symm)
      ?_ apart
    rw [size]
    exact Nat.mul_pos starts (Nat.lt_of_lt_of_le (by decide) W.config.le_pageSize)
  · rw [chunk, here]
    exact h.starts

/-- A slot goes back, and its page with it if that is given up. -/
theorem returns_slot (W : a.Wf) (held : c ∈ a.chunks) (hi : a.chunks[index]? = some c)
    (carved : c.pages.carved[page]? = some (some id)) (hs : a.table.get? id = some s)
    (active : s.active = true) (lent : s.Lends slot) (chunk : l.chunk = c.chunk)
    (part : l.slot? = some slot) (here : l.page = page)
    (offset : l.offset = page * a.config.pageSize + slot * s.slotSize) (size : l.maxLength = s.slotSize) :
    (do
      let (a, stays) ← a.returnSlot index page slot
      if stays then return a
      else (a.count .subpageRetired).returnRun index page : Checked Arena).Yields fun a' =>
        a.Returns l a' ∧ a'.activeLeases = a.activeLeases ∧
          a'.counters.returned = a.counters.returned := by
  obtain ⟨number, samePage, one⟩ := W.of_carved held carved hs
  have was : a.active? id = some s := active?_eq_some.2 ⟨hs, active⟩
  have bears : Bears s l := ⟨number.trans (by rw [chunk]), samePage.trans here.symm⟩
  apply (returnSlot_yields W hi carved hs active lent).bind
  intro ⟨a1, stays⟩ h
  obtain ⟨s', regains, retention, update⟩ := h.regains s hs
  have kept' : ∀ k, a.Backs k → k.Apart l → a1.Backs k ∧
      (stays = false → k.chunk = c.chunk → k.page ≠ page) := by
    refine fun k b apart => h.kept k b fun sameChunk samePage i hi => ?_
    by_cases zero : s.slotSize = 0
    · exact .inr zero
    · refine .inl fun e => ?_
      obtain ⟨i', hi', -, offset', size'⟩ := b.of_carved W held carved hs active sameChunk samePage
      rw [hi] at hi'
      cases hi'
      refine not_apart (sameChunk.trans chunk.symm) (by rw [offset', offset, e]) (size'.trans size.symm)
        ?_ apart
      omega
  have starts : a1.starts = a.starts := starts_congr h.chunks
  have tends : a.Tends a1 := tends_of_chunks h.chunks h.config h.idleLast
  cases stays with
  | true =>
    exact Checked.yields_pure.2 ⟨⟨h.wf, fun k b apart => (kept' k b apart).1, h.config, h.heap,
      .kept part bears was regains retention starts update, h.shrinks, tends⟩, h.leases, h.returned⟩
  | false =>
    have books := sameBooks_count a1 .subpageRetired
    have same : a1.SameCarving (a1.count .subpageRetired) := ⟨rfl, rfl, rfl, rfl⟩
    have hi1 : (a1.count .subpageRetired).chunks[index]? = some c :=
      (congrArg (·[index]?) h.chunks).trans hi
    refine (returnRun_yields (books.wf h.wf) hi1 ?_ ?_).mono ?_
    · rw [one active]
      exact Nat.one_pos
    · intro x u carved' hu
      rw [carved] at carved'
      cases carved'
      obtain ⟨s'', hs'', idle⟩ := h.subpage
      change a1.table.get? id = some u at hu
      rw [hs''] at hu
      cases hu
      exact idle
    · intro a' h'
      refine ⟨⟨h'.wf, fun k b apart => ?_, h'.config.trans h.config, h'.heap.trans h.heap,
        .retired part bears was regains retention ?_ ?_,
        (h.shrinks.trans same.shrinks).trans h'.shrinks,
        (tends.trans same.tends).trans h'.tends⟩, h'.leases.trans h.leases,
        h'.returned.trans h.returned⟩
      · obtain ⟨backs, other⟩ := kept' k b apart
        exact h'.kept k (books.backs backs) (other rfl)
      · rw [h'.starts, same.starts, starts, chunk, here]
      · exact h'.active.trans (same.active?.trans update)

/-- A pooled lease goes back. -/
theorem returnPooled_yields (W : a.Wf) (b : a.Backs l) {r : Locator}
    (location : l.location = .pooled r) :
    (a.returnPooled l.chunk.id r).Yields fun a' => a.Returns l a' ∧
      a'.activeLeases = a.activeLeases ∧ a'.counters.returned = a.counters.returned := by
  have here := Lease.page_eq location
  have pooled : l.location ≠ .unpooled := by rw [location]; nofun
  unfold returnPooled
  cases b with
  | @run c r' held chunk location' whole starts plain offset size =>
    rw [location] at location'
    cases location'
    obtain ⟨i, found, hi⟩ := W.chunkIndex_ok held
    have run : l.slot? = none := by rw [Lease.slot?_eq location, whole]; rfl
    rw [chunk]
    refine .bind_ok found ?_
    simp only [whole]
    exact returns_run W held hi starts plain chunk pooled run here offset size
  | @slot c r' j id s held chunk location' part carved named active lent offset size =>
    rw [location] at location'
    cases location'
    obtain ⟨i, found, hi⟩ := W.chunkIndex_ok held
    have slot : l.slot? = some j.toNat := by rw [Lease.slot?_eq location, part]; rfl
    rw [chunk]
    refine .bind_ok found ?_
    simp only [part]
    exact returns_slot W held hi carved named active lent chunk slot here offset size
  | own location' =>
    rw [location] at location'
    cases location'

/-- A lease that the bookkeeping accounts for is taken back. -/
theorem takeBack_yields (W : a.Wf) (b : a.Backs l)
    (counted : l.location ≠ .unpooled → 0 < a.activeLeases) :
    (a.takeBack l).Yields fun a' => a.Returns l a' ∧
      a'.activeLeases = (a.activeLeases - if l.location = .unpooled then 0 else 1) ∧
      a'.counters.returned = a.counters.returned + 1 := by
  unfold takeBack
  cases location : l.location with
  | unpooled =>
    have books := sameBooks_count a .returnedUnpooled
    have same : a.SameCarving (a.count .returnedUnpooled) := ⟨rfl, rfl, rfl, rfl⟩
    exact Checked.yields_pure.2 ⟨⟨books.wf W, fun k b _ => books.backs b, rfl, rfl,
      .own location same.starts same.active?, same.shrinks, same.tends⟩, rfl, rfl⟩
  | pooled r =>
    apply (returnPooled_yields W b location).bind
    intro a1 ⟨returns, leases, returned⟩
    have positive := counted (by rw [location]; nofun)
    refine .bind_ok (Word.sub_ok (by omega)) (Checked.yields_pure.2 ?_)
    set a' := { a1 with activeLeases := a1.activeLeases - 1 }.count .returnedPooled with e
    have books : a1.SameBooks a' := ⟨rfl, rfl, rfl, rfl, rfl, rfl, ⟨rfl, fun _ => rfl⟩⟩
    have same : a1.SameCarving a' := ⟨rfl, rfl, rfl, rfl⟩
    refine ⟨⟨books.wf returns.wf, fun k b apart => books.backs (returns.kept k b apart),
      returns.config, returns.heap, returns.uncarves.congr (.refl a) same,
      returns.shrinks.trans same.shrinks, returns.tends.trans same.tends⟩, ?_, ?_⟩
    · change a1.activeLeases - 1 = _
      rw [leases, if_neg nofun]
    · rw [← returned]
      simp only [e, count, Counters.count, Counters.returned]
      omega

end BufferPool.Arena
