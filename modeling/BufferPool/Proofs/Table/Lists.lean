import Mathlib.Logic.Function.Basic
import BufferPool.Proofs.Table.Ring

/-!
# The lists of a table

`Listed t lists` says which subpages stand in the list of each head: every list is a ring, no subpage is
in two of them, and a linked subpage is in one. The vacated nodes are vacant and are each counted once.
Each operation on nodes is described by what it does to `lists` and to `get?`.
-/

namespace BufferPool.SubpageTable

variable {t t' : SubpageTable} {head id : SubpageId} {lists : SubpageId → List SubpageId}
  {s s' : Subpage}

/-- The members of every list. -/
structure Listed (t : SubpageTable) (lists : SubpageId → List SubpageId) : Prop where
  ring : ∀ h, t.IsHead h → t.Ring h (lists h)
  members : ∀ h, t.IsHead h → ∀ x ∈ lists h, (t.get? x).isSome
  apart : ∀ h h' x, t.IsHead h → t.IsHead h' → x ∈ lists h → x ∈ lists h' → h = h'
  linked : ∀ x, (t.get? x).isSome → (t.linksAt x.node).isSome → ∃ h, t.IsHead h ∧ x ∈ lists h
  vacant : ∀ i ∈ t.vacated, i < t.nodes.size ∧ (t.node i).occupant = .vacant
  once : t.vacated.Nodup

theorem holds_of_isSome {x : SubpageId} (h : (t.get? x).isSome) : t.Holds x := by
  obtain ⟨s, hs⟩ := Option.isSome_iff_exists.1 h
  exact holds_of_get? hs

theorem IsHead.ne_node {h x : SubpageId} (hh : t.IsHead h) (hx : (t.get? x).isSome) :
    x.node ≠ h.node := by
  intro e
  rw [(holds_of_isSome hx).eq_of_node hh.holds e, hh.get?_eq_none] at hx
  cases hx

namespace Listed

theorem holds (L : t.Listed lists) {h x : SubpageId} (hh : t.IsHead h) (hx : x ∈ h :: lists h) :
    t.Holds x := by
  rcases List.mem_cons.1 hx with rfl | inner
  · exact hh.holds
  · exact holds_of_isSome (L.members h hh x inner)

/-- The rings of two heads share no node. -/
theorem node_ne (L : t.Listed lists) {h h' x y : SubpageId} (hh : t.IsHead h) (hh' : t.IsHead h')
    (ne : h ≠ h') (hx : x ∈ h :: lists h) (hy : y ∈ h' :: lists h') : x.node ≠ y.node := by
  intro e
  have same := (L.holds hh hx).eq_of_node (L.holds hh' hy) e
  subst same
  rcases List.mem_cons.1 hx with rfl | inX
  · rcases List.mem_cons.1 hy with rfl | inY
    · exact ne rfl
    · exact hh.ne_node (L.members _ hh' _ inY) rfl
  · rcases List.mem_cons.1 hy with rfl | inY
    · exact hh'.ne_node (L.members _ hh _ inX) rfl
    · exact ne (L.apart _ _ _ hh hh' inX inY)

/-- A subpage in no list has no links. -/
theorem unlinked (L : t.Listed lists) (hid : (t.get? id).isSome)
    (free : ∀ h, t.IsHead h → id ∉ lists h) : t.linksAt id.node = none := by
  cases e : t.linksAt id.node with
  | none => rfl
  | some l =>
    obtain ⟨h, hh, mem⟩ := L.linked id hid (by simp [e])
    exact absurd mem (free h hh)

/-- A table that agrees on heads and links, and resolves the same members, has the same lists. -/
theorem frame (L : t.Listed lists) (heads : ∀ h, t'.IsHead h ↔ t.IsHead h)
    (links : ∀ x, t.Holds x → t'.linksAt x.node = t.linksAt x.node)
    (members : ∀ h, t.IsHead h → ∀ x ∈ lists h, (t'.get? x).isSome)
    (linked : ∀ x, (t'.get? x).isSome → (t'.linksAt x.node).isSome → (t.get? x).isSome)
    (vacant : ∀ i ∈ t'.vacated, i < t'.nodes.size ∧ (t'.node i).occupant = .vacant)
    (once : t'.vacated.Nodup) : t'.Listed lists where
  ring h hh := by
    have old := (heads h).1 hh
    refine (L.ring h old).frame (fun x hx => ?_) fun x hx => ?_
    · rw [next?, links x (L.holds old hx), next?]
    · rw [prev?, links x (L.holds old hx), prev?]
  members h hh := members h ((heads h).1 hh)
  apart h h' x hh hh' := L.apart h h' x ((heads h).1 hh) ((heads h').1 hh')
  linked x hx hl := by
    have old := linked x hx hl
    rw [links x (holds_of_isSome old)] at hl
    obtain ⟨h, hh, mem⟩ := L.linked x old hl
    exact ⟨h, (heads h).2 hh, mem⟩
  vacant := vacant
  once := once

/-- The list of one head changes, and with it the links of its members only. -/
theorem relist (L : t.Listed lists) (same : t.SameNodes t') (hh : t.IsHead head) {ids : List SubpageId}
    (ring : t'.Ring head ids)
    (others : ∀ h, t.IsHead h → h ≠ head → ∀ x ∈ h :: lists h,
      t'.next? x = t.next? x ∧ t'.prev? x = t.prev? x)
    (members : ∀ x ∈ ids, (t.get? x).isSome ∧ ∀ h, t.IsHead h → x ∈ lists h → h = head)
    (linked : ∀ x, (t.get? x).isSome → (t'.linksAt x.node).isSome →
      x ∈ ids ∨ x ∉ lists head ∧ (t.linksAt x.node).isSome) :
    t'.Listed (Function.update lists head ids) where
  ring h isHead := by
    rw [same.isHead] at isHead
    by_cases e : h = head
    · subst e
      rw [Function.update_self]
      exact ring
    · rw [Function.update_of_ne e]
      exact (L.ring h isHead).frame (fun x hx => (others h isHead e x hx).1)
        fun x hx => (others h isHead e x hx).2
  members h isHead x hx := by
    rw [same.isHead] at isHead
    rw [same.get?]
    by_cases e : h = head
    · subst e
      rw [Function.update_self] at hx
      exact (members x hx).1
    · rw [Function.update_of_ne e] at hx
      exact L.members h isHead x hx
  apart h h' x isHead isHead' hx hx' := by
    rw [same.isHead] at isHead isHead'
    by_cases e : h = head
    · by_cases e' : h' = head
      · rw [e, e']
      · rw [e, Function.update_self] at hx
        rw [Function.update_of_ne e'] at hx'
        exact absurd ((members x hx).2 h' isHead' hx') e'
    · rw [Function.update_of_ne e] at hx
      by_cases e' : h' = head
      · rw [e', Function.update_self] at hx'
        exact absurd ((members x hx').2 h isHead hx) e
      · rw [Function.update_of_ne e'] at hx'
        exact L.apart h h' x isHead isHead' hx hx'
  linked x hx hl := by
    rw [same.get?] at hx
    simp only [same.isHead]
    rcases linked x hx hl with mem | ⟨out, old⟩
    · exact ⟨head, hh, by rw [Function.update_self]; exact mem⟩
    · obtain ⟨h, isHead, mem⟩ := L.linked x hx old
      refine ⟨h, isHead, ?_⟩
      rw [Function.update_of_ne]
      · exact mem
      · intro equal
        subst equal
        exact out mem
  vacant i hi := by
    rw [same.vacated] at hi
    rw [same.size, same.occupant]
    exact L.vacant i hi
  once := by
    rw [same.vacated]
    exact L.once

/-- A subpage that is in no list is put at the front of one. -/
theorem link (L : t.Listed lists) (hh : t.IsHead head) (hid : (t.get? id).isSome)
    (free : ∀ h, t.IsHead h → id ∉ lists h) :
    (t.link head id).Yields fun t' => t.SameNodes t' ∧
      t'.Listed (Function.update lists head (id :: lists head)) := by
  obtain ⟨n, rest, en, hn⟩ := (L.ring head hh).next_head
  have inN : n ∈ head :: lists head := by
    have : n ∈ lists head ++ [head] := en ▸ List.mem_cons_self
    simpa [or_comm] using this
  have holds := holds_of_isSome hid
  have new : ∀ h, t.IsHead h → ∀ x ∈ h :: lists h, x.node ≠ id.node := by
    intro h isHead x hx e
    have same := (L.holds isHead hx).eq_of_node holds e
    subst same
    rcases List.mem_cons.1 hx with rfl | inner
    · exact isHead.ne_node hid rfl
    · exact free h isHead inner
  refine (link_yields (L.unlinked hid free) holds.lt_size hn
    ((L.ring head hh).linked inN).2).mono ?_
  intro t' ⟨same, next, prev⟩
  refine ⟨same, L.relist same hh ?_ (fun h isHead e x hx => ⟨?_, ?_⟩) (fun x hx => ?_) fun x hx hl => ?_⟩
  · refine (L.ring head hh).link (fun mem => ?_) hn next prev
    obtain ⟨x, hx, node⟩ := List.mem_map.1 mem
    exact new head hh x hx node
  · rw [next, if_neg (L.node_ne isHead hh e hx List.mem_cons_self), if_neg (new h isHead x hx)]
  · rw [prev, if_neg (L.node_ne isHead hh e hx inN), if_neg (new h isHead x hx)]
  · rcases List.mem_cons.1 hx with rfl | inner
    · exact ⟨hid, fun h isHead mem => absurd mem (free h isHead)⟩
    · exact ⟨L.members head hh x inner, fun h isHead mem => L.apart h head x isHead hh mem inner⟩
  · by_cases e : x = id
    · exact .inl (e ▸ List.mem_cons_self)
    · rw [← isSome_next?, next, if_neg (hh.ne_node hx),
        if_neg fun node => e ((holds_of_isSome hx).eq_of_node holds node), isSome_next?] at hl
      by_cases mem : x ∈ lists head
      · exact .inl (List.mem_cons_of_mem _ mem)
      · exact .inr ⟨mem, hl⟩

/-- A subpage is taken out of its list. -/
theorem unlink (L : t.Listed lists) (hh : t.IsHead head) (hid : id ∈ lists head) :
    (t.unlink id).Yields fun t' => t.SameNodes t' ∧
      t'.Listed (Function.update lists head ((lists head).erase id)) := by
  obtain ⟨p, n, hp, hn, inP, inN, apartP, apartN, around⟩ := (L.ring head hh).unlink hid
  refine (unlink_yields hp hn ((L.ring head hh).linked inP).1 ((L.ring head hh).linked inN).2 apartP
    apartN).mono ?_
  intro t' ⟨same, next, prev⟩
  have other : ∀ h, t.IsHead h → h ≠ head → ∀ x ∈ h :: lists h, x.node ≠ id.node :=
    fun h isHead e x hx => L.node_ne isHead hh e hx (List.mem_cons_of_mem _ hid)
  refine ⟨same, L.relist same hh (around t' next prev) (fun h isHead e x hx => ⟨?_, ?_⟩)
    (fun x hx => ?_) fun x hx hl => ?_⟩
  · rw [next, if_neg (other h isHead e x hx), if_neg (L.node_ne isHead hh e hx inP)]
  · rw [prev, if_neg (other h isHead e x hx), if_neg (L.node_ne isHead hh e hx inN)]
  · have inner := List.mem_of_mem_erase hx
    exact ⟨L.members head hh x inner, fun h isHead mem => L.apart h head x isHead hh mem inner⟩
  · have ne : x.node ≠ id.node := by
      intro node
      rw [← isSome_next?, next, if_pos node] at hl
      cases hl
    by_cases mem : x ∈ lists head
    · left
      rw [(L.ring head hh).nodup.mem_erase_iff]
      exact ⟨fun e => ne (congrArg SubpageId.node e), mem⟩
    · refine .inr ⟨mem, ?_⟩
      rw [← isSome_next?, next, if_neg ne] at hl
      rw [← isSome_next?]
      split at hl
      · rename_i node
        rw [next?, node, ← next?]
        exact ((L.ring head hh).linked inP).1
      · exact hl

end Listed

/-! ## Occupants changed -/

/-- A table in which one identifier names another subpage and all else is named as before. An identifier
that loses its subpage leaves its node vacant and one generation older. -/
structure Replaces (t : SubpageTable) (id : SubpageId) (s : Option Subpage) (t' : SubpageTable) :
    Prop where
  get? : ∀ x, t'.get? x = if x = id then s else t.get? x
  heads : ∀ h, t'.IsHead h ↔ t.IsHead h
  keepLast : t'.keepLast = t.keepLast
  was : (t.node id.node).generation = id.generation
  occupant : ∀ n, (t'.node n).occupant =
    if n = id.node then s.elim .vacant .subpage else (t.node n).occupant
  generation : ∀ n, (t'.node n).generation =
    if n = id.node then s.elim (id.generation + 1) fun _ => id.generation else (t.node n).generation

theorem Replaces.trans {o o' : Option Subpage} {t'' : SubpageTable} (h : t.Replaces id o t')
    (h' : t'.Replaces id o' t'') : t.Replaces id o' t'' where
  get? x := by
    rw [h'.get?, h.get?]
    split <;> rfl
  heads x := (h'.heads x).trans (h.heads x)
  keepLast := h'.keepLast.trans h.keepLast
  was := h.was
  occupant n := by
    rw [h'.occupant, h.occupant]
    split <;> rfl
  generation n := by
    rw [h'.generation, h.generation]
    split <;> rfl

theorem Replaces.sameNodes {o : Option Subpage} {t'' : SubpageTable} (h : t.Replaces id o t')
    (h' : t'.SameNodes t'') : t.Replaces id o t'' where
  get? x := (h'.get? x).trans (h.get? x)
  heads x := (h'.isHead x).trans (h.heads x)
  keepLast := h'.keepLast.trans h.keepLast
  was := h.was
  occupant n := (h'.occupant n).trans (h.occupant n)
  generation n := (h'.generation n).trans (h.generation n)

/-- The subpage of an identifier is exchanged. -/
theorem replaces_set (hid : t.get? id = some s) (s' : Subpage) :
    t.Replaces id (some s') (t.set id s') where
  get? x := by
    have holds := holds_of_get? hid
    ext u
    rw [get?_eq_some, set, generation_withOccupant, occupant_withOccupant holds.lt_size]
    by_cases node : id.node = x.node
    · rw [if_pos node]
      constructor
      · intro ⟨occupant, generation⟩
        have same : x = id := by
          obtain ⟨n, g⟩ := x
          obtain ⟨n', g'⟩ := id
          have := holds.generation
          simp only at node generation this
          rw [node, generation] at this
          rw [node, this]
        rw [if_pos same]
        simpa using occupant
      · intro h
        by_cases same : x = id
        · rw [if_pos same, Option.some.injEq] at h
          subst same
          exact ⟨by rw [h], holds.generation⟩
        · rw [if_neg same] at h
          exact absurd ((holds_of_get? h).eq_of_node holds node.symm) same
    · have ne : x ≠ id := fun e => node (by rw [e])
      rw [if_neg node, if_neg ne, get?_eq_some]
  heads h := by
    have holds := holds_of_get? hid
    have other : t.IsHead h → id.node ≠ h.node := fun hh => hh.ne_node (by simp [hid])
    constructor
    · intro ⟨occupant, generation⟩
      rw [set, occupant_withOccupant holds.lt_size] at occupant
      rw [set, generation_withOccupant] at generation
      split at occupant
      · cases occupant
      · exact ⟨occupant, generation⟩
    · intro hh
      constructor
      · rw [set, occupant_withOccupant holds.lt_size, if_neg (other hh)]
        exact hh.occupant
      · rw [set, generation_withOccupant]
        exact hh.generation
  keepLast := rfl
  was := (holds_of_get? hid).generation
  occupant n := by
    rw [set, occupant_withOccupant (holds_of_get? hid).lt_size]
    simp only [eq_comm, Option.elim_some]
  generation n := by
    rw [set, generation_withOccupant]
    split
    · rename_i here
      rw [here]
      exact (holds_of_get? hid).generation
    · rfl

theorem Listed.set (L : t.Listed lists) (hid : t.get? id = some s) (s' : Subpage) :
    (t.set id s').Listed lists := by
  have replaces := replaces_set hid s'
  have resolves : ∀ x, ((t.set id s').get? x).isSome = (t.get? x).isSome := by
    intro x
    rw [replaces.get?]
    split
    · rename_i e
      rw [e, hid]
      rfl
    · rfl
  refine L.frame replaces.heads (fun x _ => linksAt_withOccupant ..) (fun h hh x hx => ?_)
    (fun x hx _ => ?_) (fun i hi => ?_) L.once
  · rw [resolves]
    exact L.members h hh x hx
  · rwa [resolves] at hx
  · obtain ⟨inside, vacant⟩ := L.vacant i hi
    refine ⟨by rw [SubpageTable.set, size_withOccupant]; exact inside, ?_⟩
    rw [SubpageTable.set, occupant_withOccupant (holds_of_get? hid).lt_size, if_neg]
    · exact vacant
    · intro node
      have occupied := (holds_of_get? hid).occupied
      rw [node] at occupied
      exact occupied vacant

/-! ## Nodes taken and vacated -/

/-- A table that differs in one node, which holds no head before or after. -/
theorem isHead_aside {i : Nat} (other : ∀ j, j ≠ i → t'.node j = t.node j)
    (outside : ∀ h, t.IsHead h → h.node ≠ i) (noHead : (t'.node i).occupant ≠ .head) (h : SubpageId) :
    t'.IsHead h ↔ t.IsHead h := by
  constructor
  · intro ⟨occupant, generation⟩
    have ne : h.node ≠ i := fun e => noHead (e ▸ occupant)
    rw [other _ ne] at occupant generation
    exact ⟨occupant, generation⟩
  · intro hh
    have ne := outside h hh
    exact ⟨by rw [other _ ne]; exact hh.occupant, by rw [other _ ne]; exact hh.generation⟩

/-- A table that differs in one unlinked node, which holds no head before or after. -/
theorem Listed.aside (L : t.Listed lists) {i : Nat} (other : ∀ j, j ≠ i → t'.node j = t.node j)
    (outside : ∀ h, t.IsHead h → ∀ x ∈ h :: lists h, x.node ≠ i)
    (noHead : (t'.node i).occupant ≠ .head) (links : (t'.node i).links = none)
    (vacant : ∀ j ∈ t'.vacated, j < t'.nodes.size ∧ (t'.node j).occupant = .vacant)
    (once : t'.vacated.Nodup) : t'.Listed lists := by
  have resolves : ∀ x : SubpageId, x.node ≠ i → t'.get? x = t.get? x := by
    intro x ne
    ext u
    rw [get?_eq_some, get?_eq_some, other _ ne]
  have linksOther : ∀ x : SubpageId, x.node ≠ i → t'.linksAt x.node = t.linksAt x.node := by
    intro x ne
    rw [linksAt, other _ ne, linksAt]
  have heads := isHead_aside other (fun h hh => outside h hh h List.mem_cons_self) noHead
  refine ⟨fun h hh => ?_, fun h hh x hx => ?_, fun h h' x hh hh' => ?_, fun x hx hl => ?_, vacant,
    once⟩
  · have old := (heads h).1 hh
    refine (L.ring h old).frame (fun x hx => ?_) fun x hx => ?_
    · rw [next?, linksOther x (outside h old x hx), next?]
    · rw [prev?, linksOther x (outside h old x hx), prev?]
  · have old := (heads h).1 hh
    rw [resolves x (outside h old x (List.mem_cons_of_mem _ hx))]
    exact L.members h old x hx
  · exact L.apart h h' x ((heads h).1 hh) ((heads h').1 hh')
  · have ne : x.node ≠ i := by
      intro equal
      subst equal
      rw [linksAt, links] at hl
      cases hl
    rw [resolves x ne] at hx
    rw [linksOther x ne] at hl
    obtain ⟨h, hh, mem⟩ := L.linked x hx hl
    exact ⟨h, (heads h).2 hh, mem⟩

/-- What taking a node for an occupant does. -/
structure Places (t : SubpageTable) (o : Occupant) (t' : SubpageTable) (id : SubpageId) : Prop where
  node : ∀ i, t'.node i = if i = id.node then ⟨none, o, id.generation⟩ else t.node i
  was : (t.node id.node).occupant = .vacant
  generation : (t.node id.node).generation = id.generation
  inside : id.node < t'.nodes.size
  size : t.nodes.size ≤ t'.nodes.size
  vacated : ∀ i ∈ t'.vacated, i ∈ t.vacated ∧ i ≠ id.node
  once : t'.vacated.Nodup
  keepLast : t'.keepLast = t.keepLast

theorem places_place (vacant : ∀ i ∈ t.vacated, i < t.nodes.size ∧ (t.node i).occupant = .vacant)
    (once : t.vacated.Nodup) (o : Occupant) : t.Places o (t.place o).1 (t.place o).2 := by
  cases e : t.vacated with
  | nil =>
    have placed : t.place o =
        ({ t with nodes := t.nodes.push ⟨none, o, 0⟩ }, ⟨t.nodes.size, 0⟩) := by
      rw [place, e]
    rw [placed]
    refine ⟨fun i => ?_, ?_, ?_, ?_, ?_, ?_, ?_, rfl⟩
    · by_cases last : i = t.nodes.size
      · subst last
        simp [node]
      · rw [if_neg last]
        by_cases inside : i < t.nodes.size
        · simp [node, Array.getElem?_push, last]
        · simp [node, Array.getElem?_push, last]
    · rw [node_of_size_le (Nat.le_refl _)]
    · rw [node_of_size_le (Nat.le_refl _)]
    · simp
    · simp
    · intro i hi
      simp [e] at hi
    · exact once
  | cons index rest =>
    have placed : t.place o =
        ({ t with
          nodes := t.nodes.modify index fun n => { n with links := none, occupant := o }
          vacated := rest }, ⟨index, (t.node index).generation⟩) := by
      rw [place, e]
    obtain ⟨inside, was⟩ := vacant index (e ▸ List.mem_cons_self)
    rw [e, List.nodup_cons] at once
    rw [placed]
    refine ⟨fun i => ?_, was, rfl, ?_, ?_, fun i hi => ?_, once.2, rfl⟩
    · rw [node_modify (f := fun n => { n with links := none, occupant := o }) rfl inside]
      split
      · rename_i same
        rw [if_pos same.symm]
      · rename_i ne
        rw [if_neg (Ne.symm ne)]
    · simpa using inside
    · simp
    · rw [e]
      refine ⟨List.mem_cons_of_mem _ hi, ?_⟩
      intro equal
      subst equal
      exact once.1 hi

/-- A new subpage gets an identifier that named nothing, and stands in no list. -/
theorem Listed.insert (L : t.Listed lists) (s : Subpage) :
    t.get? (t.insert s).2 = none ∧ t.Replaces (t.insert s).2 (some s) (t.insert s).1 ∧
      (t.insert s).1.Listed lists := by
  have places := places_place L.vacant L.once (.subpage s)
  change t.Places (.subpage s) (t.insert s).1 (t.insert s).2 at places
  set t' := (t.insert s).1
  set id := (t.insert s).2
  have unnamed : ∀ x, t.Holds x → x.node ≠ id.node := fun x hx node =>
    hx.occupied (node ▸ places.was)
  have other : ∀ j, j ≠ id.node → t'.node j = t.node j := fun j ne => by rw [places.node, if_neg ne]
  have noHead : (t'.node id.node).occupant ≠ .head := by
    rw [places.node, if_pos rfl]
    intro head
    cases head
  have fresh : t.get? id = none := by
    cases e : t.get? id with
    | none => rfl
    | some u => exact absurd rfl (unnamed id (holds_of_get? e))
  refine ⟨fresh, ⟨fun x => ?_, fun h => ?_, places.keepLast, places.generation, fun n => ?_,
    fun n => ?_⟩, ?_⟩
  · ext u
    rw [get?_eq_some, places.node]
    by_cases node : x.node = id.node
    · rw [if_pos node]
      by_cases same : x = id
      · subst same
        simp
      · rw [if_neg same]
        constructor
        · intro outcome
          obtain ⟨-, generation⟩ := outcome
          refine absurd ?_ same
          obtain ⟨n, g⟩ := x
          simp only at node generation
          rw [node, ← generation]
        · intro h
          exact absurd node (unnamed x (holds_of_get? h))
    · have ne : x ≠ id := fun e => node (by rw [e])
      rw [if_neg node, if_neg ne, get?_eq_some]
  · exact isHead_aside other (fun h hh => unnamed h hh.holds) noHead h
  · rw [places.node]
    split <;> rfl
  · rw [places.node]
    split <;> rfl
  · refine L.aside other (fun h hh x hx => unnamed x (L.holds hh hx)) noHead ?_ (fun j hj => ?_)
      places.once
    · rw [places.node, if_pos rfl]
    · obtain ⟨old, ne⟩ := places.vacated j hj
      obtain ⟨inside, vacant⟩ := L.vacant j old
      exact ⟨Nat.lt_of_lt_of_le inside places.size, by rw [places.node, if_neg ne]; exact vacant⟩

/-- A subpage in no list is removed. -/
theorem Listed.remove (L : t.Listed lists) (hid : t.get? id = some s)
    (free : ∀ h, t.IsHead h → id ∉ lists h) :
    (t.remove id).Yields fun r => r.2 = s ∧ t.Replaces id none r.1 ∧ r.1.Listed lists := by
  have resolves : (t.get? id).isSome := by simp [hid]
  have holds := holds_of_get? hid
  have unlinked := L.unlinked resolves free
  unfold SubpageTable.remove
  refine .guard (by simp [unlinked]) ?_
  rw [(get?_eq_some.1 hid).1]
  refine Checked.yields_pure.2 ⟨rfl, ?_⟩
  set t' : SubpageTable := { t with
    nodes := t.nodes.modify id.node fun n =>
      { n with occupant := .vacant, generation := n.generation + 1 }
    vacated := id.node :: t.vacated } with eq
  have nodes : ∀ j, t'.node j = if id.node = j then
      ⟨(t.node id.node).links, .vacant, (t.node id.node).generation + 1⟩ else t.node j :=
    node_modify (f := fun n => { n with occupant := .vacant, generation := n.generation + 1 }) rfl
      holds.lt_size
  have other : ∀ j, j ≠ id.node → t'.node j = t.node j := by
    intro j ne
    rw [nodes, if_neg (Ne.symm ne)]
  have mine : t'.node id.node = ⟨none, .vacant, (t.node id.node).generation + 1⟩ := by
    rw [nodes, if_pos rfl]
    rw [linksAt] at unlinked
    rw [unlinked]
  have notHead : ∀ h, t.IsHead h → h.node ≠ id.node := fun h hh node =>
    hh.ne_node resolves node.symm
  have noHead : (t'.node id.node).occupant ≠ .head := by
    rw [mine]
    intro head
    cases head
  refine ⟨⟨fun x => ?_, fun h => ?_, rfl, holds.generation, fun n => ?_, fun n => ?_⟩, ?_⟩
  · ext u
    rw [get?_eq_some]
    by_cases same : x = id
    · subst same
      rw [mine, if_pos rfl]
      simp
    · rw [if_neg same]
      by_cases node : x.node = id.node
      · rw [node, mine]
        constructor
        · intro outcome
          obtain ⟨occupant, -⟩ := outcome
          cases occupant
        · intro h
          exact absurd ((holds_of_get? h).eq_of_node holds node) same
      · rw [other _ node, get?_eq_some]
  · exact isHead_aside other notHead noHead h
  · by_cases here : n = id.node
    · rw [here, mine, if_pos rfl]
      rfl
    · rw [other n here, if_neg here]
  · by_cases here : n = id.node
    · rw [here, mine, if_pos rfl, holds.generation]
      rfl
    · rw [other n here, if_neg here]
  · refine L.aside other (fun h hh x hx node => ?_) noHead ?_ (fun j hj => ?_) ?_
    · have same := (L.holds hh hx).eq_of_node holds node
      subst same
      rcases List.mem_cons.1 hx with rfl | inner
      · exact notHead _ hh rfl
      · exact free h hh inner
    · rw [mine]
    · by_cases same : j = id.node
      · subst same
        exact ⟨by simpa [eq] using holds.lt_size, by rw [mine]⟩
      · have old : j ∈ t.vacated := (List.mem_cons.1 hj).resolve_left same
        obtain ⟨inside, vacant⟩ := L.vacant j old
        exact ⟨by simpa [eq] using inside, by rw [other _ same]; exact vacant⟩
    · refine List.nodup_cons.2 ⟨fun hj => holds.occupied (L.vacant _ hj).2, L.once⟩

end BufferPool.SubpageTable
