import BufferPool.Arena.Stats
import BufferPool.Proofs.Arena.Books

/-!
# Kept references

A reference to a subpage is its identifier. It names the subpage as long as the chunk is held, whatever the
page is carved into meanwhile, and nothing afterwards: the node of the subpage is a generation older each
time it is vacated, and chunks get new numbers (`Arena.Traces`). Only a node that was vacated so often that
its generations begin anew could mistake a later subpage for an earlier one.
-/

namespace BufferPool.Arena

variable {a a' b : Arena} {id : SubpageId} {s was : Subpage} {times : Nat}

/-- How often a node was vacated on the way from one arena to the next. -/
def vacated (a a' : Arena) (n : Nat) : Nat :=
  if (a'.table.node n).generation = (a.table.node n).generation then 0 else 1

/-- What became of a subpage that an identifier named, after its node was vacated so many times. -/
structure Traces (was : Subpage) (id : SubpageId) (times : Nat) (a : Arena) : Prop where
  generation : (a.table.node id.node).generation = id.generation + UInt32.ofNat times
  numbered : was.chunk < a.nextChunkId
  alive : times = 0 → ∃ s, a.table.get? id = some s ∧ was.SamePage s
  gone : times ≠ 0 → ∀ c ∈ a.chunks, c.chunk.id ≠ was.chunk

theorem vacated_of_same {n : Nat} (h : (a'.table.node n).generation = (a.table.node n).generation) :
    a.vacated a' n = 0 := if_pos h

theorem vacated_of_older {n : Nat}
    (h : (a'.table.node n).generation = (a.table.node n).generation + 1) : a.vacated a' n = 1 := by
  refine if_neg fun same => ?_
  have older := congrArg UInt32.toNat (same.symm.trans h)
  have small := (a.table.node n).generation.toNat_lt
  rw [UInt32.toNat_add, UInt32.toNat_one] at older
  omega

/-- A subpage that is named now. -/
theorem Wf.traces (W : a.Wf) (hs : a.table.get? id = some s) : Traces s id 0 a where
  generation := (SubpageTable.get?_eq_some.1 hs).2.trans (UInt32.add_zero _).symm
  numbered := by
    obtain ⟨c, held, chunk, -⟩ := W.recorded id s hs
    rw [← chunk, (W.chunks c held).named, W.next]
    exact Nat.succ_lt_succ (W.chunks c held).inside
  alive _ := ⟨s, hs, .refl s⟩
  gone h := absurd rfl h

namespace Traces

theorem grows (T : Traces was id times a) (h : a.Grows b) : Traces was id times b where
  generation := (h.generation _).trans T.generation
  numbered := Nat.lt_of_lt_of_le T.numbered h.next
  alive zero := by
    obtain ⟨s, hs, same⟩ := T.alive zero
    obtain ⟨s', hs', same'⟩ := h.named id s hs
    exact ⟨s', hs', same.trans same'⟩
  gone some c hc := by
    rcases h.chunks c hc with ⟨d, hd, same⟩ | new
    · rw [← same]
      exact T.gone some d hd
    · have := T.numbered
      omega

theorem shrinks (T : Traces was id times a) (h : a.Shrinks b) :
    Traces was id (times + a.vacated b id.node) b := by
  have numbered : was.chunk < b.nextChunkId := h.next.symm ▸ T.numbered
  have older : (b.table.node id.node).generation = (a.table.node id.node).generation + 1 →
      (b.table.node id.node).generation = id.generation + UInt32.ofNat (times + 1) := fun next => by
    rw [next, T.generation, UInt32.ofNat_add, UInt32.add_assoc]
    rfl
  by_cases zero : times = 0
  · subst zero
    obtain ⟨s, hs, same⟩ := T.alive rfl
    have named := (SubpageTable.get?_eq_some.1 hs).2
    -- A subpage that is removed takes its chunk with it, and its node grows older.
    rcases h.named id s hs with ⟨s', hs', same'⟩ | ⟨-, next, gone⟩
    · have still := (SubpageTable.get?_eq_some.1 hs').2
      rw [vacated_of_same (still.trans named.symm)]
      exact ⟨still.trans (UInt32.add_zero _).symm, numbered, fun _ => ⟨s', hs', same.trans same'⟩,
        fun none => absurd rfl none⟩
    · rw [← named] at next
      rw [vacated_of_older next]
      exact ⟨older next, numbered, nofun, fun _ => same.chunk ▸ gone⟩
  · have gone : ∀ c ∈ b.chunks, c.chunk.id ≠ was.chunk := fun c hc => by
      obtain ⟨d, hd, same⟩ := h.chunks c hc
      rw [← same]
      exact T.gone zero d hd
    rcases h.generation id.node with still | ⟨-, next⟩
    · rw [vacated_of_same still]
      exact ⟨still.trans T.generation, numbered, fun none => absurd none zero, fun _ => gone⟩
    · rw [vacated_of_older next]
      exact ⟨older next, numbered, nofun, fun _ => gone⟩

/-- A request vacates a node once at most. -/
theorem ages (T : Traces was id times a) (h : a.Ages a') :
    Traces was id (times + a.vacated a' id.node) a' := by
  obtain ⟨b, grows, shrinks⟩ := h
  have same : a.vacated a' id.node = b.vacated a' id.node := by
    rw [vacated, vacated, grows.generation]
  rw [same]
  exact (T.grows grows).shrinks shrinks

end Traces

/-! ## What a reference reports -/

/-- What a reference reports that once named a subpage. -/
inductive Reports (a : Arena) (was : Subpage) (id : SubpageId) : Prop where
  /-- The subpage of the page, while it is carved. -/
  | carved {c : PooledChunk} {s : Subpage} (held : c ∈ a.chunks) (chunk : c.chunk.id = was.chunk)
      (recorded : c.pages.carved[was.page.toNat]? = some (some id)) (named : a.table.get? id = some s)
      (active : s.active = true)
      (metric : a.metric id = ⟨some s.slots, some s.available, some s.slotSize, a.config.pageSize⟩)
  /-- Nothing, while the page is given back. -/
  | retired {c : PooledChunk} {s : Subpage} (held : c ∈ a.chunks) (chunk : c.chunk.id = was.chunk)
      (recorded : c.pages.carved[was.page.toNat]? = some (some id)) (named : a.table.get? id = some s)
      (idle : s.active = false) (metric : a.metric id = ⟨none, none, none, a.config.pageSize⟩)
  /-- Nothing, once the chunk is destroyed. -/
  | destroyed (gone : ∀ c ∈ a.chunks, c.chunk.id ≠ was.chunk)
      (metric : a.metric id = ⟨none, none, none, a.config.pageSize⟩)

theorem metric_of_active (hs : a.table.get? id = some s) (active : s.active = true) :
    a.metric id = ⟨some s.slots, some s.available, some s.slotSize, a.config.pageSize⟩ := by
  rw [metric, hs]
  simp only [Subpage.metric, active, if_true]

theorem metric_of_idle (hs : a.table.get? id = some s) (idle : s.active = false) :
    a.metric id = ⟨none, none, none, a.config.pageSize⟩ := by
  rw [metric, hs]
  simp only [Subpage.metric, idle, Bool.false_eq_true, if_false]

/-- A node that was vacated, but not too often, does not have the generation of the identifier. -/
theorem Traces.stale (T : Traces was id times a) (some : times ≠ 0) (few : times < 2 ^ 32) :
    a.table.get? id = none := by
  cases found : a.table.get? id with
  | none => rfl
  | some s =>
    have same := T.generation.symm.trans (SubpageTable.get?_eq_some.1 found).2
    have again := congrArg UInt32.toNat same
    have small := id.generation.toNat_lt
    rw [UInt32.toNat_add, UInt32.toNat_ofNat_of_lt' few] at again
    omega

/-- Unless the generations begin anew, a reference reports of its own subpage only. -/
theorem Traces.reports (T : Traces was id times a) (W : a.Wf) (few : times < 2 ^ 32) :
    a.Reports was id := by
  by_cases zero : times = 0
  · obtain ⟨s, hs, same⟩ := T.alive zero
    obtain ⟨c, held, chunk, recorded⟩ := W.recorded id s hs
    rw [same.chunk] at chunk
    rw [same.page] at recorded
    cases active : s.active with
    | true => exact .carved held chunk recorded hs active (metric_of_active hs active)
    | false => exact .retired held chunk recorded hs active (metric_of_idle hs active)
  · refine .destroyed (T.gone zero) ?_
    rw [metric, T.stale zero few]

end BufferPool.Arena
