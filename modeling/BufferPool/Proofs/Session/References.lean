import BufferPool.Proofs.Session.Subpages
import BufferPool.Proofs.Table.Generations

/-!
# References that are kept for too long

A reference to a subpage reads nothing once the chunk of the subpage is destroyed, and it reads nothing at any
later state (`Session.Forgets`), however often its node was given to other subpages in between.
-/

namespace BufferPool

namespace Arena

variable {a a' : Arena} {id : SubpageId} {was : Subpage} {chunk times : Nat}

/-- No chunk of this number is held. -/
def Lacks (a : Arena) (chunk : Nat) : Prop := ∀ c ∈ a.chunks, c.chunk.id ≠ chunk

/-- A chunk that is gone does not come back. -/
theorem Numbers.lacks (h : a.Numbers a') (given : chunk < a.nextChunkId) (lacks : a.Lacks chunk) :
    a'.Lacks chunk := by
  intro c held same
  obtain ⟨d, before, e⟩ := h.old c held (same ▸ given)
  exact lacks d before (by rw [e, same])

/-- A reference that shows no figures, and that its subpage is destroyed. -/
structure ReadsNothing (a : Arena) (id : SubpageId) : Prop where
  metric : a.metric id = ⟨none, none, none, a.config.pageSize⟩
  text : a.subpageText id = .ok "(destroyed)"

theorem readsNothing_of_get?_eq_none (none : a.table.get? id = none) : a.ReadsNothing id where
  metric := by rw [metric, none]
  text := by
    rw [subpageText, none]
    rfl

/-- The subpages of a chunk go with it, and their nodes grow older. -/
theorem Traces.readsNothing (T : Traces was id times a) (W : a.Wf) (few : times < 2 ^ 32)
    (lacks : a.Lacks was.chunk) : a.ReadsNothing id := by
  refine readsNothing_of_get?_eq_none (T.stale (fun never => ?_) few)
  obtain ⟨s, named, same⟩ := T.alive never
  obtain ⟨c, held, chunk, -⟩ := W.recorded id s named
  exact lacks c held (chunk.trans same.chunk)

end Arena

namespace Session

variable {s last : Session} {all : List Session} {id : SubpageId} {was : Subpage} {times : Nat}

/-- What became of a subpage at each of the sessions in a row. -/
theorem Trail.traces_mem (t : s.Trail all last) (T : Arena.Traces was id times s.pool.arena) :
    ∀ y ∈ all, y.Sound ∧ ∃ k ≤ times + vacations id.node all, Arena.Traces was id k y.pool.arena := by
  induction t generalizing times with
  | done sound =>
    intro y mem
    rw [List.mem_singleton.1 mem]
    exact ⟨sound, times, Nat.le_add_right .., T⟩
  | step sound course rest ih =>
    have later := ih (T.ages course.ages)
    obtain ⟨others, rfl⟩ := rest.head
    refine List.forall_mem_cons.2 ⟨⟨sound, times, Nat.le_add_right .., T⟩, fun y mem => ?_⟩
    obtain ⟨sound', k, few, T'⟩ := later y mem
    exact ⟨sound', k, by rw [vacations]; omega, T'⟩

/-- What references to the subpages of a session show at the sessions that follow it. -/
structure Forgets (s : Session) (all : List Session) : Prop where
  destroyed : ∀ x ∈ s.pool.arena.subpages, ∀ u, s.pool.arena.table.get? x = some u → ∀ y ∈ all,
    y.pool.arena.Lacks u.chunk → y.pool.arena.ReadsNothing x
  /-- A chunk that is destroyed is gone from all later sessions. -/
  lacks : ∀ x ∈ s.pool.arena.subpages, ∀ u, s.pool.arena.table.get? x = some u →
    all.Pairwise fun y z => y.pool.arena.Lacks u.chunk → z.pool.arena.Lacks u.chunk

theorem Trail.forgets (t : s.Trail all last) (sound : s.Sound) (few : ∀ n, vacations n all < 2 ^ 32) :
    s.Forgets all where
  destroyed x _ u named y mem lacks := by
    obtain ⟨sound', k, le, traces⟩ := t.traces_mem (sound.wf.pool.arena.traces named) y mem
    rw [Nat.zero_add] at le
    exact traces.readsNothing sound'.wf.pool.arena (Nat.lt_of_le_of_lt le (few _)) lacks
  lacks x _ u named := by
    have numbers := t.pairwise (R := fun p p' => p.arena.Numbers p'.arena) (fun h h' => h.trans h')
      fun _ course => course.ages.numbers
    refine numbers.imp_of_mem fun {y z} mem _ numbers gone => ?_
    obtain ⟨-, k, -, traces⟩ := t.traces_mem (sound.wf.pool.arena.traces named) y mem
    exact numbers.lacks traces.numbered gone

section

variable {config : PoolConfig} {supply : Supply} {pool : Pool} {before after : List Command}
  {keepLast : Bool} {actions : List SubpageTable.Action} {t : SubpageTable}

/-- The identifiers of a table name their own subpages and no others. So references that are kept in the course
of a run read nothing when the chunks of their subpages are destroyed, nor ever after, provided that no node
was vacated too often in between. -/
theorem identifiers_resolve_own (passes : SubpageTable.Passes (.empty keepLast) actions t)
    (seldom : ∀ n, SubpageTable.vacations n actions < 2 ^ 32)
    (created : Pool.createOn supply config = .ok pool)
    (lossless : config.pageSize * 2 ^ config.maxOrder < Word.bound)
    (isPublic : ∀ command ∈ before ++ after, command.isPublic = true) :
    SubpageTable.Resolves actions t ∧
      ((ofPool pool).play before).Yields fun s => (s.stages after).Yields fun all =>
        (∀ n, vacations n all < 2 ^ 32) → s.Forgets all := by
  refine ⟨passes.resolves seldom, ?_⟩
  apply (play_yields (sound_ofPool created lossless) before
    fun c hc => isPublic c (List.mem_append_left _ hc)).mono
  intro s sound
  apply (stages_yields sound after fun c hc => isPublic c (List.mem_append_right _ hc)).mono
  rintro all ⟨last, -, trail⟩ few
  exact trail.forgets sound few

/-- A node that is given to a second subpage, and a chunk of one page that is destroyed after references were
kept. -/
theorem identifiers_resolve_own_reused :
    SubpageTable.Resolves [.inserted (.ofPage 1 1 8192 8192) ⟨0, 0⟩,
        .removed ⟨0, 0⟩ (.ofPage 1 1 8192 8192), .inserted (.ofPage 1 2 16384 8192) ⟨0, 1⟩]
      ⟨#[⟨none, .subpage (.ofPage 1 2 16384 8192), 1⟩], [], true⟩ ∧
      ((ofPool (.ofConfig { pageSize := 4096, maxOrder := 0, keepLastSubpage := false } .full)).play
        [.buffer 0 100, .buffer 1 4096, .hold 2]).Yields fun s =>
          (s.stages [.drop 0]).Yields fun all => s.Forgets all := by
  have passes : SubpageTable.Passes (.empty true) [.inserted (.ofPage 1 1 8192 8192) ⟨0, 0⟩,
      .removed ⟨0, 0⟩ (.ofPage 1 1 8192 8192), .inserted (.ofPage 1 2 16384 8192) ⟨0, 1⟩]
      ⟨#[⟨none, .subpage (.ofPage 1 2 16384 8192), 1⟩], [], true⟩ :=
    .cons (.insert _) (.cons (.remove (r := (_, _)) rfl) (.cons (.insert _) .nil))
  obtain ⟨resolves, s, played, all, staged, forgets⟩ := identifiers_resolve_own passes
    (fun n => Nat.lt_of_le_of_lt (SubpageTable.vacations_le_length n _) (by decide))
    (show Pool.createOn .full { pageSize := 4096, maxOrder := 0, keepLastSubpage := false } =
      .ok (.ofConfig { pageSize := 4096, maxOrder := 0, keepLastSubpage := false } .full) from rfl)
    (by decide)
    (show ∀ command ∈ ([.buffer 0 100, .buffer 1 4096, .hold 2] ++ [.drop 0] : List Command),
      command.isPublic = true by decide)
  refine ⟨resolves, s, played, all, staged, forgets fun n => ?_⟩
  have few := vacations_le_length n all
  rw [length_stages staged] at few
  exact Nat.lt_of_le_of_lt few (by decide)

end

end Session

end BufferPool
