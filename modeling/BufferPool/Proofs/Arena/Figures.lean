import BufferPool.Arena.Stats
import BufferPool.Proofs.Arena.Return

/-!
# The figures of the arena

What the arena shows of itself, counted from its chunks: the pages in use are the pages of all runs
(`Arena.runs`), and the carved pages are those of all subpages that are not given back (`Arena.actives`).
-/

namespace BufferPool

/-- A run of pages of a chunk. -/
structure Run where
  chunk : Nat
  page : Nat
  length : Nat
deriving DecidableEq

/-- The page of a subpage as a run of its own. -/
def Subpage.asRun (s : Subpage) : Run := ⟨s.chunk, s.page.toNat, 1⟩

namespace PageMap

variable {m : PageMap}

/-- The runs of a chunk. -/
def runs (m : PageMap) (chunk : Nat) : List Run :=
  (List.range m.count).filterMap fun page =>
    if 0 < m.run page then some ⟨chunk, page, m.run page⟩ else none

theorem mem_runs (wf : m.Wf) {chunk : Nat} {r : Run} :
    r ∈ m.runs chunk ↔ r.chunk = chunk ∧ m.run r.page = r.length ∧ 0 < r.length := by
  obtain ⟨rc, rp, rl⟩ := r
  simp only [runs, List.mem_filterMap, List.mem_range, Option.ite_none_right_eq_some,
    Option.some.injEq, Run.mk.injEq]
  constructor
  · rintro ⟨page, -, some, rfl, rfl, rfl⟩
    exact ⟨rfl, rfl, some⟩
  · rintro ⟨rfl, rfl, some⟩
    refine ⟨rp, ?_, some, rfl, rfl, rfl⟩
    by_contra beyond
    rw [run_eq_zero wf (Nat.le_of_not_lt beyond)] at some
    exact Nat.lt_irrefl 0 some

theorem nodup_runs (m : PageMap) (chunk : Nat) : (m.runs chunk).Nodup := by
  refine List.pairwise_filterMap.2 (List.nodup_range.imp fun {p q} ne x hx y hy e => ne ?_)
  simp only [Option.ite_none_right_eq_some, Option.some.injEq] at hx hy
  obtain ⟨-, rfl⟩ := hx
  obtain ⟨-, rfl⟩ := hy
  exact congrArg Run.page e

/-- The pages in use are those of the runs. -/
theorem Wf.used_eq (wf : m.Wf) (chunk : Nat) :
    m.count - m.free = ((m.runs chunk).map Run.length).sum := by
  have sum : ∀ n, ∑ page ∈ Finset.range n, m.run page =
      (((List.range n).filterMap fun page =>
        if 0 < m.run page then some (Run.mk chunk page (m.run page)) else none).map Run.length).sum := by
    intro n
    induction n with
    | zero => rfl
    | succ n ih =>
      rw [Finset.sum_range_succ, ih, List.range_succ, List.filterMap_append, List.map_append,
        List.sum_append]
      by_cases some : 0 < m.run n
      · simp [some]
      · simp [Nat.eq_zero_of_not_pos some]
  have account := wf.account
  rw [sum m.count] at account
  rw [runs]
  omega

end PageMap

namespace Arena

variable {a : Arena} {s u : Subpage} {id x : SubpageId} {r : Run} {c : PooledChunk}

/-- The runs of all chunks. -/
def runs (a : Arena) : List Run := a.chunks.toList.flatMap fun c => c.pages.runs c.chunk.id

/-- The subpages that are not given back. -/
def actives (a : Arena) : List Subpage := a.subpages.filterMap a.active?

theorem mem_runs (W : a.Wf) : r ∈ a.runs ↔
    ∃ c ∈ a.chunks, c.chunk.id = r.chunk ∧ c.pages.run r.page = r.length ∧ 0 < r.length := by
  simp only [runs, List.mem_flatMap, Array.mem_toList_iff]
  refine exists_congr fun c => and_congr_right fun held => ?_
  rw [PageMap.mem_runs (W.chunks c held).pages, eq_comm]

/-- The chunks have different numbers. -/
theorem Wf.pairwise_chunks (W : a.Wf) :
    a.chunks.toList.Pairwise fun c d => c.chunk.id ≠ d.chunk.id := by
  refine List.pairwise_iff_getElem.2 fun i j hi hj lt same => ?_
  simp only [Array.length_toList] at hi hj
  simp only [Array.getElem_toList] at same
  have := W.distinct i j _ _ (Array.getElem?_eq_getElem hi) (Array.getElem?_eq_getElem hj) same
  omega

theorem nodup_runs (W : a.Wf) : a.runs.Nodup := by
  refine List.nodup_flatMap.2 ⟨fun c _ => PageMap.nodup_runs .., ?_⟩
  refine List.Pairwise.imp_of_mem ?_ W.pairwise_chunks
  intro c d hc hd ne r hr hr'
  have held := Array.mem_toList_iff.1 hc
  have held' := Array.mem_toList_iff.1 hd
  exact ne (((PageMap.mem_runs (W.chunks c held).pages).1 hr).1.symm.trans
    ((PageMap.mem_runs (W.chunks d held').pages).1 hr').1)

/-- The subpages recorded in the chunks are those of the table. -/
theorem Wf.mem_subpages (W : a.Wf) : x ∈ a.subpages ↔ ∃ s, a.table.get? x = some s := by
  simp only [Arena.subpages, List.mem_flatMap, Array.mem_toList_iff]
  constructor
  · intro ⟨c, held, hx⟩
    obtain ⟨page, carved⟩ := Arena.mem_subpages.1 hx
    obtain ⟨s, hs, -⟩ := (W.chunks c held).carved page x carved
    exact ⟨s, hs⟩
  · intro ⟨s, hs⟩
    obtain ⟨c, held, -, carved⟩ := W.recorded x s hs
    exact ⟨c, held, Arena.mem_subpages.2 ⟨_, carved⟩⟩

theorem Wf.nodup_subpages (W : a.Wf) : a.subpages.Nodup := by
  refine List.nodup_flatMap.2
    ⟨fun c hc => Arena.nodup_subpages (W.chunks c (Array.mem_toList_iff.1 hc)), ?_⟩
  refine List.Pairwise.imp_of_mem ?_ W.pairwise_chunks
  intro c d hc hd ne x hx hx'
  have held := Array.mem_toList_iff.1 hc
  have held' := Array.mem_toList_iff.1 hd
  obtain ⟨page, carved⟩ := Arena.mem_subpages.1 hx
  obtain ⟨s, hs, chunk, -⟩ := (W.chunks c held).carved page x carved
  exact ne (chunk.symm.trans ((mem_subpages_iff W held' hs).1 hx'))

theorem mem_actives (W : a.Wf) : s ∈ a.actives ↔ ∃ x, a.active? x = some s := by
  rw [actives, List.mem_filterMap]
  refine exists_congr fun x => and_iff_right_of_imp fun hs => ?_
  exact W.mem_subpages.2 ⟨s, (active?_eq_some.1 hs).1⟩

/-- What two active subpages share tells them apart as long as it does so for their identifiers. -/
theorem pairwise_actives (W : a.Wf) {R : Subpage → Subpage → Prop}
    (apart : ∀ x y s u, x ≠ y → a.active? x = some s → a.active? y = some u → R s u) :
    a.actives.Pairwise R :=
  List.pairwise_filterMap.2 (W.nodup_subpages.imp fun ne _ hs _ hu => apart _ _ _ _ ne hs hu)

/-- The active subpages are on different pages. -/
theorem nodup_asRun (W : a.Wf) : (a.actives.map Subpage.asRun).Nodup := by
  refine List.pairwise_map.2 (pairwise_actives W fun x y s u ne hs hu e => ne ?_)
  rw [Subpage.asRun, Subpage.asRun, Run.mk.injEq] at e
  exact W.eq_of_page (active?_eq_some.1 hs).1 (active?_eq_some.1 hu).1 e.1.symm e.2.1.symm

/-! ## The figures -/

theorem usedPagesIn_eq : ∀ {chunks : List PooledChunk}, (∀ c ∈ chunks, c.pages.Wf) →
    usedPagesIn chunks =
      .ok ((chunks.flatMap fun c => c.pages.runs c.chunk.id).map Run.length).sum
  | [], _ => rfl
  | c :: rest, wf => by
    have first := wf c List.mem_cons_self
    have others := usedPagesIn_eq fun d hd => wf d (List.mem_cons_of_mem _ hd)
    rw [usedPagesIn, Word.sub_ok first.free_le, others, Checked.ok_bind, Checked.ok_bind,
      first.used_eq c.chunk.id, List.flatMap_cons, List.map_append, List.sum_append]
    rfl

/-- The pages in use are those of all runs. -/
theorem usedPages_eq (W : a.Wf) : a.usedPages = .ok (a.runs.map Run.length).sum :=
  usedPagesIn_eq fun c hc => (W.chunks c (Array.mem_toList_iff.1 hc)).pages

theorem countActive_eq : ∀ {ids : List SubpageId}, (∀ x ∈ ids, ∃ s, a.table.get? x = some s) →
    countActive a.table ids = .ok (ids.filterMap a.active?).length
  | [], _ => rfl
  | x :: rest, named => by
    obtain ⟨s, hs⟩ := named x List.mem_cons_self
    have others := countActive_eq fun y hy => named y (List.mem_cons_of_mem _ hy)
    rw [countActive, SubpageTable.get_ok hs, Checked.ok_bind, others, Checked.ok_bind,
      List.filterMap_cons, active?, hs, Option.filter_some]
    cases s.active <;> rfl

/-- The carved pages are those of the subpages that are not given back. -/
theorem activeSubpages_eq (W : a.Wf) : a.activeSubpages = .ok a.actives.length :=
  countActive_eq fun _ hx => W.mem_subpages.1 hx

end Arena

end BufferPool
