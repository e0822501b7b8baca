import Mathlib.Data.List.Chain
import Mathlib.Data.List.Nodup
import BufferPool.Proofs.Table.Nodes

/-!
# Lists as rings

A list of subpages is a ring: from the head on, each node names the next one and is named by it, and the
last one is followed by the head. Linking a node at the front and unlinking one write four and two link
fields; everything else about a ring is a frame argument over distinct nodes.
-/

namespace BufferPool.SubpageTable

variable {t t' : SubpageTable} {head id : SubpageId} {ids : List SubpageId}

/-- Two neighbours that name each other. -/
def Joined (t : SubpageTable) (x y : SubpageId) : Prop := t.next? x = some y ∧ t.prev? y = some x

/-- The members of a list in order, joined from the head around to the head. -/
structure Ring (t : SubpageTable) (head : SubpageId) (ids : List SubpageId) : Prop where
  chain : (head :: (ids ++ [head])).IsChain t.Joined
  distinct : ((head :: ids).map SubpageId.node).Nodup

/-- A chain read by another relation that holds wherever the first one is used. -/
theorem isChain_mono {R S : SubpageId → SubpageId → Prop} : ∀ {l : List SubpageId}, l.IsChain R →
    (∀ a ∈ l.dropLast, ∀ b ∈ l.tail, R a b → S a b) → l.IsChain S
  | [], _, _ => .nil
  | [a], _, _ => .singleton a
  | a :: b :: rest, h, keep => by
    rw [List.isChain_cons_cons] at h ⊢
    refine ⟨keep a (by simp) b (by simp) h.1, isChain_mono h.2 fun x hx y hy => ?_⟩
    exact keep x (by simp only [List.dropLast_cons_cons, List.mem_cons]; exact .inr hx) y
      (List.mem_of_mem_tail hy)

theorem Ring.nodup (r : t.Ring head ids) : ids.Nodup :=
  (List.nodup_cons.1 r.distinct).2.of_map

theorem Ring.ne_head (r : t.Ring head ids) {x : SubpageId} (hx : x ∈ ids) : x.node ≠ head.node :=
  fun e => (List.nodup_cons.1 r.distinct).1 (e ▸ List.mem_map_of_mem hx)

/-- A ring is the same in a table where none of its nodes changed its neighbours. -/
theorem Ring.frame (r : t.Ring head ids)
    (next : ∀ x ∈ head :: ids, t'.next? x = t.next? x)
    (prev : ∀ x ∈ head :: ids, t'.prev? x = t.prev? x) : t'.Ring head ids where
  distinct := r.distinct
  chain := by
    apply isChain_mono r.chain
    intro a ha b hb joined
    have inner : b ∈ head :: ids := by
      rcases List.mem_append.1 hb with h | h
      · exact List.mem_cons_of_mem _ h
      · exact List.mem_singleton.1 h ▸ List.mem_cons_self
    rw [← List.cons_append, List.dropLast_concat] at ha
    exact ⟨(next a ha).trans joined.1, (prev b inner).trans joined.2⟩

/-- The first member follows the head. -/
theorem Ring.next_head (r : t.Ring head ids) :
    ∃ n rest, ids ++ [head] = n :: rest ∧ t.next? head = some n := by
  have chain := r.chain
  cases ids with
  | nil => exact ⟨head, [], rfl, (List.isChain_cons_cons.1 chain).1.1⟩
  | cons x rest => exact ⟨x, rest ++ [head], rfl, (List.isChain_cons_cons.1 chain).1.1⟩

/-- A node put at the front: the seam is written, the rest of the ring is framed. -/
theorem Ring.link {n : SubpageId} (r : t.Ring head ids) (new : id.node ∉ (head :: ids).map SubpageId.node)
    (hn : t.next? head = some n)
    (next : ∀ x, t'.next? x = if x.node = head.node then some id
      else if x.node = id.node then some n else t.next? x)
    (prev : ∀ x, t'.prev? x = if x.node = n.node then some id
      else if x.node = id.node then some head else t.prev? x) : t'.Ring head (id :: ids) where
  distinct := by
    have old := r.distinct
    simp only [List.map_cons, List.nodup_cons, List.mem_cons, not_or] at old new ⊢
    exact ⟨⟨Ne.symm new.1, old.1⟩, new.2, old.2⟩
  chain := by
    obtain ⟨_, rest, en, first⟩ := r.next_head
    rw [hn, Option.some.injEq] at first
    subst first
    have chain := r.chain
    have distinct := r.distinct
    have closed : ((ids ++ [head]).map SubpageId.node).Nodup := by
      rw [List.map_append, List.nodup_append_comm]
      exact distinct
    have fresh : ∀ x ∈ ids ++ [head], x.node ≠ id.node := by
      intro x hx e
      refine new (List.mem_map.2 ⟨x, ?_, e⟩)
      rcases List.mem_append.1 hx with h | h
      · exact List.mem_cons_of_mem _ h
      · exact List.mem_singleton.1 h ▸ List.mem_cons_self
    have apartHead : head.node ≠ id.node := fresh head (by simp)
    rw [List.cons_append, en, List.isChain_cons_cons, List.isChain_cons_cons]
    refine ⟨⟨by rw [next, if_pos rfl], ?_⟩, ⟨?_, by rw [prev, if_pos rfl]⟩, ?_⟩
    · have : id.node ≠ n.node := Ne.symm (fresh n (by rw [en]; exact List.mem_cons_self))
      rw [prev, if_neg this, if_pos rfl]
    · rw [next, if_neg (Ne.symm apartHead), if_pos rfl]
    · rw [en] at chain closed fresh
      apply isChain_mono (List.isChain_cons_cons.1 chain).2
      intro a ha b hb joined
      have inner : a ∈ ids := by
        rw [← en, List.dropLast_concat] at ha
        exact ha
      have later : b.node ≠ n.node := by
        intro e
        exact (List.nodup_cons.1 closed).1 (e ▸ List.mem_map_of_mem hb)
      constructor
      · rw [next, if_neg (r.ne_head inner), if_neg (fresh a (List.dropLast_subset _ ha))]
        exact joined.1
      · rw [prev, if_neg later, if_neg (fresh b (List.mem_cons_of_mem _ hb))]
        exact joined.2

/-- A member of a ring, with its two neighbours and the parts of the ring on both sides. -/
structure Seam (t : SubpageTable) (head id : SubpageId) (l1 l2 before : List SubpageId)
    (p n : SubpageId) (after : List SubpageId) : Prop where
  ending : head :: l1 = before ++ [p]
  beginning : l2 ++ [head] = n :: after
  front : (before ++ [p]).IsChain t.Joined
  joined : t.Joined p id ∧ t.Joined id n
  back : (n :: after).IsChain t.Joined
  /-- Of the nodes from the head on, none comes again before the head does. -/
  distinct : (head :: (l1 ++ id :: l2)).Pairwise fun a b => a.node ≠ b.node

theorem Ring.seam (r : t.Ring head ids) (hid : id ∈ ids) :
    ∃ l1 l2 before p n after, ids = l1 ++ id :: l2 ∧ t.Seam head id l1 l2 before p n after := by
  obtain ⟨l1, l2, rfl⟩ := List.append_of_mem hid
  obtain ⟨before, p, ep⟩ : ∃ before p, head :: l1 = before ++ [p] :=
    ⟨_, _, (List.dropLast_append_getLast (by simp)).symm⟩
  obtain ⟨n, after, en⟩ : ∃ n after, l2 ++ [head] = n :: after := by
    cases l2 with
    | nil => exact ⟨head, [], rfl⟩
    | cons n rest => exact ⟨n, rest ++ [head], rfl⟩
  have chain := r.chain
  rw [List.append_assoc, List.cons_append, en, ← List.cons_append, ep, List.append_assoc,
    List.singleton_append, List.isChain_split, List.isChain_cons_cons, List.isChain_cons_cons] at chain
  obtain ⟨front, joinedPrev, joinedNext, back⟩ := chain
  exact ⟨l1, l2, before, p, n, after, rfl, ep, en, front, ⟨joinedPrev, joinedNext⟩, back,
    List.pairwise_map.1 r.distinct⟩

/-- Every node of a ring is linked in both directions. -/
theorem Ring.linked (r : t.Ring head ids) {x : SubpageId} (hx : x ∈ head :: ids) :
    (t.next? x).isSome ∧ (t.prev? x).isSome := by
  rcases List.mem_cons.1 hx with rfl | inner
  · obtain ⟨_, _, -, next⟩ := r.next_head
    rw [isSome_prev?, ← isSome_next?, next]
    exact ⟨rfl, rfl⟩
  · obtain ⟨l1, l2, before, p, n, after, -, seam⟩ := r.seam inner
    rw [seam.joined.2.1, seam.joined.1.2]
    exact ⟨rfl, rfl⟩

namespace Seam

variable {l1 l2 before after : List SubpageId} {p n : SubpageId}

theorem mem_prev (m : t.Seam head id l1 l2 before p n after) : p ∈ head :: l1 := by
  rw [m.ending]
  simp

theorem mem_next (m : t.Seam head id l1 l2 before p n after) : n ∈ l2 ++ [head] := by
  rw [m.beginning]
  exact List.mem_cons_self

/-- Up to the seam no node is that of the member. -/
theorem ne_front (m : t.Seam head id l1 l2 before p n after) {x : SubpageId} (hx : x ∈ head :: l1) :
    x.node ≠ id.node := by
  have distinct := m.distinct
  rw [← List.cons_append, List.pairwise_append] at distinct
  exact distinct.2.2 x hx id List.mem_cons_self

/-- Past the seam no node is that of the member. -/
theorem ne_back (m : t.Seam head id l1 l2 before p n after) {x : SubpageId} (hx : x ∈ l2 ++ [head]) :
    x.node ≠ id.node := by
  rcases List.mem_append.1 hx with inner | last
  · have distinct := m.distinct
    rw [← List.cons_append, List.pairwise_append] at distinct
    exact Ne.symm ((List.pairwise_cons.1 distinct.2.1).1 x inner)
  · rw [List.mem_singleton.1 last]
    exact m.ne_front List.mem_cons_self

/-- No member before the seam has the node of a later one or of the head. -/
theorem ne_across (m : t.Seam head id l1 l2 before p n after) {x y : SubpageId} (hx : x ∈ l1)
    (hy : y ∈ l2 ++ [head]) : x.node ≠ y.node := by
  have distinct := m.distinct
  rw [List.pairwise_cons, List.pairwise_append] at distinct
  rcases List.mem_append.1 hy with inner | last
  · exact distinct.2.2.2 x hx y (List.mem_cons_of_mem _ inner)
  · rw [List.mem_singleton.1 last]
    exact Ne.symm (distinct.1 x (List.mem_append_left _ hx))

/-- No member past the seam has the node of an earlier one or of the head. -/
theorem ne_across' (m : t.Seam head id l1 l2 before p n after) {x y : SubpageId} (hx : x ∈ l2)
    (hy : y ∈ head :: l1) : x.node ≠ y.node := by
  have distinct := m.distinct
  rw [← List.cons_append, List.pairwise_append] at distinct
  exact Ne.symm (distinct.2.2 y hy x (List.mem_cons_of_mem _ hx))

theorem ne_prev (m : t.Seam head id l1 l2 before p n after) {x : SubpageId} (hx : x ∈ before) :
    x.node ≠ p.node := by
  have distinct := m.distinct
  rw [← List.cons_append, m.ending, List.pairwise_append, List.pairwise_append] at distinct
  exact distinct.1.2.2 x hx p (by simp)

theorem ne_next (m : t.Seam head id l1 l2 before p n after) {x : SubpageId} (hx : x ∈ after) :
    x.node ≠ n.node := by
  have distinct := m.distinct
  rw [List.pairwise_cons, List.pairwise_append, List.pairwise_cons] at distinct
  have closed : (l2 ++ [head]).Pairwise fun a b => a.node ≠ b.node := by
    rw [List.pairwise_append]
    refine ⟨distinct.2.2.1.2, List.pairwise_singleton _ _, fun x hx y hy => ?_⟩
    rw [List.mem_singleton.1 hy]
    exact m.ne_across' hx List.mem_cons_self
  rw [m.beginning, List.pairwise_cons] at closed
  exact Ne.symm (closed.1 x hx)

/-- The part up to the seam is joined as before: only its last node is followed by another one. -/
theorem front_frame (m : t.Seam head id l1 l2 before p n after)
    (next : ∀ x, t'.next? x = if x.node = id.node then none
      else if x.node = p.node then some n else t.next? x)
    (prev : ∀ x, t'.prev? x = if x.node = id.node then none
      else if x.node = n.node then some p else t.prev? x) : (before ++ [p]).IsChain t'.Joined := by
  apply isChain_mono m.front
  intro a ha b hb joined
  rw [List.dropLast_concat] at ha
  rw [← m.ending] at hb
  have first : a ∈ head :: l1 := by
    rw [m.ending]
    exact List.mem_append_left _ ha
  constructor
  · rw [next, if_neg (m.ne_front first), if_neg (m.ne_prev ha)]
    exact joined.1
  · rw [prev, if_neg (m.ne_front (List.mem_cons_of_mem _ hb)), if_neg (m.ne_across hb m.mem_next)]
    exact joined.2

/-- The part past the seam is joined as before: only its first node follows another one. -/
theorem back_frame (m : t.Seam head id l1 l2 before p n after)
    (next : ∀ x, t'.next? x = if x.node = id.node then none
      else if x.node = p.node then some n else t.next? x)
    (prev : ∀ x, t'.prev? x = if x.node = id.node then none
      else if x.node = n.node then some p else t.prev? x) : (n :: after).IsChain t'.Joined := by
  apply isChain_mono m.back
  intro a ha b hb joined
  rw [← m.beginning, List.dropLast_concat] at ha
  have later : b ∈ l2 ++ [head] := by
    rw [m.beginning]
    exact List.mem_cons_of_mem _ hb
  constructor
  · rw [next, if_neg (m.ne_back (List.mem_append_left _ ha)), if_neg (m.ne_across' ha m.mem_prev)]
    exact joined.1
  · rw [prev, if_neg (m.ne_back later), if_neg (m.ne_next hb)]
    exact joined.2

end Seam

/-- A member has the same neighbour on both sides only if it is the only one. -/
theorem Ring.alone_iff (r : t.Ring head ids) (hid : id ∈ ids) {p n : SubpageId}
    (hp : t.prev? id = some p) (hn : t.next? id = some n) : p = n ↔ ids = [id] := by
  obtain ⟨l1, l2, before, q, m, after, rfl, seam⟩ := r.seam hid
  cases hp.symm.trans seam.joined.1.2
  cases hn.symm.trans seam.joined.2.1
  have ending := seam.ending
  have beginning := seam.beginning
  constructor
  · intro same
    subst same
    cases before with
    | nil =>
      obtain ⟨rfl, rfl⟩ := List.cons.inj ending
      cases l2 with
      | nil => rfl
      | cons x rest =>
        obtain ⟨rfl, -⟩ := List.cons.inj beginning
        exact absurd rfl (seam.ne_across' List.mem_cons_self List.mem_cons_self)
    | cons b bs =>
      obtain ⟨-, last⟩ := List.cons.inj ending
      exact absurd rfl (seam.ne_across (last ▸ List.mem_append_right _ List.mem_cons_self) seam.mem_next)
  · intro only
    obtain ⟨rfl, rfl⟩ : l1 = [] ∧ l2 = [] := by
      have length := congrArg List.length only
      simp only [List.length_append, List.length_cons, List.length_nil] at length
      exact ⟨List.length_eq_zero_iff.1 (by omega), List.length_eq_zero_iff.1 (by omega)⟩
    obtain ⟨rfl, -⟩ := List.cons.inj beginning
    have := congrArg List.getLast? ending
    simpa using this.symm

/-- A node taken out: the seam is closed, the two parts of the ring beside it are framed. -/
theorem Ring.unlink (r : t.Ring head ids) (hid : id ∈ ids) : ∃ p n, t.prev? id = some p ∧
    t.next? id = some n ∧ p ∈ head :: ids ∧ n ∈ head :: ids ∧ p.node ≠ id.node ∧ n.node ≠ id.node ∧
    ∀ t' : SubpageTable,
      (∀ x, t'.next? x = if x.node = id.node then none
        else if x.node = p.node then some n else t.next? x) →
      (∀ x, t'.prev? x = if x.node = id.node then none
        else if x.node = n.node then some p else t.prev? x) → t'.Ring head (ids.erase id) := by
  obtain ⟨l1, l2, before, p, n, after, rfl, m⟩ := r.seam hid
  refine ⟨p, n, m.joined.1.2, m.joined.2.1, ?_, ?_, m.ne_front m.mem_prev, m.ne_back m.mem_next,
    fun t' next prev => ⟨?_, r.distinct.sublist ((List.erase_sublist.cons_cons head).map _)⟩⟩
  · rcases List.mem_cons.1 m.mem_prev with rfl | inner
    · exact List.mem_cons_self
    · exact List.mem_cons_of_mem _ (List.mem_append_left _ inner)
  · rcases List.mem_append.1 m.mem_next with inner | last
    · exact List.mem_cons_of_mem _ (List.mem_append_right _ (List.mem_cons_of_mem _ inner))
    · exact List.mem_singleton.1 last ▸ List.mem_cons_self
  · have rest : (l1 ++ id :: l2).erase id = l1 ++ l2 := by
      rw [List.erase_append_right _ fun h => m.ne_front (List.mem_cons_of_mem _ h) rfl,
        List.erase_cons_head]
    have closed : t'.Joined p n := by
      constructor
      · rw [next, if_neg (m.ne_front m.mem_prev), if_pos rfl]
      · rw [prev, if_neg (m.ne_back m.mem_next), if_pos rfl]
    rw [rest, List.append_assoc, m.beginning, ← List.cons_append, m.ending, List.append_assoc,
      List.singleton_append, List.isChain_split, List.isChain_cons_cons]
    exact ⟨m.front_frame next prev, closed, m.back_frame next prev⟩

end BufferPool.SubpageTable
