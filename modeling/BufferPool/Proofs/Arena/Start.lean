import BufferPool.Arena.Stats
import BufferPool.Proofs.Arena.Change

/-!
# The first arena, and what any arena shows

A new arena has empty lists and nothing else, and is well formed. The figures of a well-formed arena can
be read without tripping a check.
-/

namespace BufferPool

namespace SubpageTable

variable {t : SubpageTable}

/-- A table of empty lists. -/
structure HeadsOnly (t : SubpageTable) : Prop where
  node : ∀ i < t.nodes.size, t.node i = ⟨some ⟨⟨i, 0⟩, ⟨i, 0⟩⟩, .head, 0⟩
  vacated : t.vacated = []

/-- One more empty list. -/
theorem headsOnly_addHead (h : t.HeadsOnly) : t.addHead.1.HeadsOnly ∧
    t.addHead.1.nodes.size = t.nodes.size + 1 ∧ t.addHead.2 = ⟨t.nodes.size, 0⟩ := by
  set t1 : SubpageTable := { t with nodes := t.nodes.push ⟨none, .head, 0⟩ } with e1
  have size : t1.nodes.size = t.nodes.size + 1 := Array.size_push ..
  have added : t.addHead = (t1.withLinks t.nodes.size (some ⟨⟨t.nodes.size, 0⟩, ⟨t.nodes.size, 0⟩⟩),
      ⟨t.nodes.size, 0⟩) := by
    simp only [addHead, place, h.vacated, e1]
  rw [added]
  refine ⟨⟨fun i hi => ?_, h.vacated⟩, (size_withLinks ..).trans size, rfl⟩
  rw [size_withLinks, size] at hi
  rw [withLinks, node_modify (f := fun n => { n with
    links := some ⟨⟨t.nodes.size, 0⟩, ⟨t.nodes.size, 0⟩⟩ }) rfl (by omega)]
  split
  · rename_i last
    subst last
    simp [node, e1]
  · rename_i other
    rw [← h.node i (by omega)]
    simp [node, e1, Array.getElem?_push, Ne.symm other]

/-- A list more does not change whether the last subpage of a size is kept. -/
theorem keepLast_addHead (t : SubpageTable) : t.addHead.1.keepLast = t.keepLast := by
  unfold addHead place
  cases t.vacated <;> rfl

theorem HeadsOnly.isHead (h : t.HeadsOnly) {i : Nat} (hi : i < t.nodes.size) : t.IsHead ⟨i, 0⟩ :=
  ⟨by rw [h.node i hi], by rw [h.node i hi]⟩

theorem HeadsOnly.get? (h : t.HeadsOnly) (x : SubpageId) : t.get? x = none := by
  cases e : t.get? x with
  | none => rfl
  | some s =>
    obtain ⟨occupant, -⟩ := get?_eq_some.1 e
    rw [h.node _ (holds_of_get? e).lt_size] at occupant
    cases occupant

theorem HeadsOnly.wf (h : t.HeadsOnly) (headOf : Nat → SubpageId) : t.Wf headOf where
  subpages x s hs := by rw [h.get?] at hs; cases hs
  served x s hs := by rw [h.get?] at hs; cases hs
  listed := by
    refine ⟨fun _ => [], ⟨fun g hg => ⟨?_, by simp⟩, fun _ _ _ hx => absurd hx List.not_mem_nil,
      fun _ _ _ _ _ hx => absurd hx List.not_mem_nil, fun x hx => ?_, fun i hi => ?_, ?_⟩,
      fun g _ x => by simp [h.get?]⟩
    · have node := h.node _ hg.holds.lt_size
      have self : g = ⟨g.node, 0⟩ := by
        have := hg.generation
        rw [node] at this
        obtain ⟨n, gen⟩ := g
        exact congrArg _ this.symm
      have linked : t.linksAt g.node = some ⟨g, g⟩ := by
        rw [linksAt, node, ← self]
      simp [Joined, next?, prev?, linked]
    · rw [h.get?] at hx
      cases hx
    · rw [h.vacated] at hi
      cases hi
    · rw [h.vacated]
      exact List.nodup_nil

end SubpageTable

namespace Arena

open Size

variable {a : Arena}

/-- Lists added to a table are numbered in order. -/
theorem addHeads_spec {t : SubpageTable} (h : t.HeadsOnly) : ∀ count : Nat,
    (addHeads t count).1.HeadsOnly ∧ (addHeads t count).1.nodes.size = t.nodes.size + count ∧
      (addHeads t count).2.size = count ∧
      ∀ i < count, (addHeads t count).2[i]? = some ⟨t.nodes.size + i, 0⟩
  | 0 => ⟨h, rfl, rfl, fun i hi => absurd hi (Nat.not_lt_zero i)⟩
  | n + 1 => by
    obtain ⟨heads, size, number, each⟩ := addHeads_spec h n
    obtain ⟨heads', size', id⟩ := SubpageTable.headsOnly_addHead heads
    rw [addHeads]
    refine ⟨heads', by rw [size', size]; rfl, by simp [number], fun i hi => ?_⟩
    rw [Array.getElem?_push, number, id, size]
    split
    · rename_i last
      rw [last]
    · exact each i (by omega)

theorem keepLast_addHeads (t : SubpageTable) (count : Nat) :
    (addHeads t count).1.keepLast = t.keepLast := by
  induction count with
  | zero => rfl
  | succ n ih => exact (SubpageTable.keepLast_addHead _).trans ih

theorem keepLast_ofConfig (config : PoolConfig) (supply : Supply) :
    (ofConfig config supply).table.keepLast = config.keepLastSubpage := by
  rw [ofConfig]
  simp only [keepLast_addHeads]
  rfl

/-- A new arena is well formed. -/
theorem wf_ofConfig {config : PoolConfig} (exactly : config.Exact) (supply : Supply) :
    (ofConfig config supply).Wf := by
  have none : (SubpageTable.empty config.keepLastSubpage).HeadsOnly :=
    ⟨fun i hi => absurd hi (Nat.not_lt_zero i), rfl⟩
  have start : (SubpageTable.empty config.keepLastSubpage).nodes.size = 0 := rfl
  obtain ⟨tinyHeads, tinySize, -, tiny⟩ := addHeads_spec none tinyClasses
  obtain ⟨heads, size, -, small⟩ := addHeads_spec tinyHeads (smallClasses config.pageSize)
  unfold ofConfig
  -- The lists are numbered one by one, which no step from here on has to see.
  generalize addHeads (.empty config.keepLastSubpage) tinyClasses = added at *
  obtain ⟨t1, tinyList⟩ := added
  dsimp only at *
  generalize addHeads t1 (smallClasses config.pageSize) = added at *
  obtain ⟨t2, smallList⟩ := added
  dsimp only at *
  rw [start, Nat.zero_add] at tinySize
  simp only [start, Nat.zero_add] at tiny
  rw [tinySize] at small size
  have nothing : ∀ x s, t2.get? x ≠ some s := fun x s hs => by
    rw [heads.get?] at hs
    cases hs
  exact ⟨exactly, tiny, small, fun i hi => heads.isHead (by rw [size]; exact hi), heads.wf headOf,
    fun x s hs => absurd hs (nothing x s), fun c hc => absurd hc (Array.not_mem_empty c),
    fun i j c d hi => (by cases hi), fun x s hs => absurd hs (nothing x s), rfl,
    fun _ => (by decide : 0 < Memory.limit)⟩

/-! ## Figures -/

theorem Wf.freeSubpages_ok (W : a.Wf) (capacity : Nat) : ∃ n, a.freeSubpages capacity = .ok n := by
  obtain ⟨kind, class_eq, numbered, cases⟩ := W.config.ofSize_rounded capacity
  change Class.ofSize (a.rounded capacity) a.config.pageSize a.chunkSize = kind at class_eq
  change kind.isNumbered (a.rounded capacity) = true at numbered
  unfold freeSubpages
  by_cases slot : IsSlot a.config.pageSize (a.rounded capacity)
  · obtain ⟨n, hn, -⟩ := SubpageTable.length_yields W.table (W.isHead slot)
    exact ⟨n, by rw [W.listHead?_slot slot]; exact hn⟩
  · have none : a.listHead? (a.rounded capacity) = .ok none := by
      unfold listHead?
      rw [classOf_ok class_eq numbered, Checked.ok_bind]
      rcases cases with ⟨rfl, -⟩ | ⟨rfl, -⟩ | ⟨-, -, isSlot⟩
      · rfl
      · rfl
      · exact absurd isSlot slot
    exact ⟨0, by rw [none]; rfl⟩

theorem Wf.subpageText_ok (W : a.Wf) (id : SubpageId) : ∃ text, a.subpageText id = .ok text := by
  unfold subpageText
  cases named : a.table.get? id with
  | none => exact ⟨_, rfl⟩
  | some s =>
    refine ⟨s.text, ?_⟩
    simp only
    rw [Checked.guard_ok (by simp [(W.table.subpages id s named).available_le])]
    rfl

end Arena

end BufferPool
