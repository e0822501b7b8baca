import BufferPool.Proofs.Pool.Undo
import BufferPool.Proofs.Session.Pages
import BufferPool.Proofs.Session.Sizes
import BufferPool.Proofs.Session.Twins

/-!
# Buffers that are dropped at once

Once there is a chunk, a buffer of pages, or of a slot of a listed page, that is made and dropped at once goes
unnoticed: all later commands are answered as if it had never been there. Only chunks that are made later have
other numbers, other cores wait, and the pair was counted.
-/

namespace BufferPool

open Checked

namespace Session

variable {s t : Session} {key capacity : Nat} {refuses : Supply}

/-- The session on a system that answers otherwise. -/
def withSupply (s : Session) (refuses : Supply) : Session := s.withPool (s.pool.withSupply refuses)

/-! ## The pair -/

/-- A buffer was made under a number that was free. -/
structure MakesBuffer (s : Session) (key capacity : Nat) (t : Session) (p : Pool) (id : CoreId) : Prop where
  free : s.handles.get? key = none
  attached : s.attached = true
  granted : s.pool.allocate capacity s.pool.config.defaultMaxCapacity = .ok (p, .ok id)
  made : t = (s.withPool p).withHandle key (.buffer ⟨id⟩)

theorem buffer_makesBuffer (s : Session) (key capacity : Nat) : (s.step (.buffer key capacity)).Gives fun r =>
    r.2 = .done → ∃ p id, s.MakesBuffer key capacity r.1 p id := by
  have run : (s.run (.buffer key capacity)).Gives fun r => r.2 = .done →
      ∃ p id, s.MakesBuffer key capacity r.1 p id := by
    rw [Session.run, makeBuffer]
    split
    · exact gives_pure.2 fun e => by cases e
    rename_i free
    split
    · exact gives_pure.2 fun e => by cases e
    rename_i attached
    cases granted : s.pool.allocate capacity s.pool.config.defaultMaxCapacity with
    | error v => exact gives_error
    | ok r =>
      obtain ⟨p, answer⟩ := r
      cases answer with
      | error refusal => exact gives_pure.2 fun e => by cases e
      | ok id =>
        refine gives_pure.2 fun _ => ⟨p, id, ?_, by simpa using attached, granted, rfl⟩
        exact Option.not_isSome_iff_eq_none.1 free
  refine run.bind ?_
  rintro ⟨t, answer⟩ makes
  refine gives_pure.2 fun done => ?_
  obtain ⟨p, id, made⟩ := makes done
  have attached : t.attached = true := by
    rw [show t = _ from made.made]
    exact made.attached
  rw [settle_of_referenced (isReferenced_of_attached attached)]
  exact ⟨p, id, made⟩

/-- The buffer is dropped at once: the handles are what they were. -/
theorem MakesBuffer.drop {p : Pool} {id : CoreId} (h : s.MakesBuffer key capacity t p id) :
    (t.step (.drop key)).Gives fun r => ∃ q, p.release id = .ok q ∧ r = (s.withPool q, .done) := by
  have found : t.handles.get? key = some (.buffer ⟨id⟩) := by
    rw [h.made]
    exact Registry.get?_insert_self
  have handles : t.handles.erase key = s.handles := by
    rw [h.made]
    exact (Registry.erase_insert key _).trans (Registry.erase_of_none h.free)
  have attached : t.attached = true := by
    rw [h.made]
    exact h.attached
  have pool : t.pool = p := by rw [h.made]; rfl
  have run : (t.run (.drop key)).Gives fun r => ∃ q, p.release id = .ok q ∧ r = (s.withPool q, .done) := by
    rw [Session.run, Session.drop, found]
    unfold dropHandle Buffer.drop
    rw [handles, pool]
    dsimp only
    cases released : p.release id with
    | error v => exact gives_error
    | ok q => exact gives_ok.2 ⟨q, rfl, by rw [h.made]; rfl⟩
  refine run.bind ?_
  rintro _ ⟨q, released, rfl⟩
  refine gives_pure.2 ⟨q, released, ?_⟩
  have attached : (s.withPool q).attached = true := h.attached
  rw [settle_of_referenced (isReferenced_of_attached attached)]

/-- The pool is restored, and everything else is as it was. -/
theorem MakesBuffer.drop_restores {p : Pool} {id : CoreId} (h : s.MakesBuffer key capacity t p id) (W : s.Wf)
    (O : s.pool.Orderly) (some : 0 < s.pool.arena.chunks.size) (served : s.pool.arena.ServedAgain capacity) :
    (t.step (.drop key)).Gives fun r => ∃ q, r = (s.withPool q, .done) ∧ s.pool.Restored q := by
  refine h.drop.mono ?_
  rintro _ ⟨q, released, rfl⟩
  exact ⟨q, rfl, O.allocate_release W.pool some served _ _ h.granted id rfl q released⟩

/-! ## What is left of it -/

theorem renamed_id (h : Handle) : h.renamed id = h := by
  cases h <;> rfl

/-- On another system a session is as sound. -/
theorem Sound.withSupply (S : s.Sound) (refuses : Supply) : (s.withSupply refuses).Sound where
  wf := by
    have books : s.pool.arena.SameBooks (s.pool.withSupply refuses).arena :=
      ⟨rfl, rfl, rfl, rfl, rfl, rfl, rfl, fun _ => rfl⟩
    exact ⟨S.wf.pool.sameBooks books rfl rfl (fun _ => rfl) rfl, S.wf.ordered, S.wf.solo,
      fun h mem => (S.wf.fits h mem).transfer fun i on => (S.wf.fits h mem).bound on, S.wf.shared⟩
  ended := S.ended

/-- The sessions are twins if the system answers alike from now on. -/
theorem twins_of_restored {q : Pool} (W : s.Wf) (restored : s.pool.Restored q) (W' : q.Wf)
    (answers : ∀ n size,
      (s.withSupply refuses).pool.arena.heap.willRefuse n size = q.arena.heap.willRefuse n size) :
    (s.withSupply refuses).Twins
      (.shifted s.pool.arena.heap.blocks.size (q.arena.heap.blocks.size - s.pool.arena.heap.blocks.size))
      { i | (s.pool.core i).isBound = true } id (s.withPool q) where
  pool := restored.twins W.pool W' answers
  handles := (Registry.map_same renamed_id).symm
  ordered := W.ordered
  known h mem i on := by
    obtain ⟨l, lease⟩ := (W.fits h mem).bound on
    exact Core.isBound_of_lease lease
  attached := rfl
  closed := rfl

/-! ## Runs -/

/-- Both sessions answer all commands of a run alike, but for the counters, and look alike before and after each
of them. -/
structure PlaysAlike (s s' : Session) (commands : List Command) : Prop where
  answers : (s.transcript commands).Yields fun r => (s'.transcript commands).Yields fun r' =>
    List.Forall₂ (EntryLike fun _ _ => True) r.2 r'.2
  looks : (s.stages commands).Yields fun all => (s'.stages commands).Yields fun all' =>
    List.Forall₂ Resembles all all'

theorem Twins.playsAlike {first spare : Nat} {K : Set CoreId} {ρ : CoreId → CoreId} {s' : Session}
    (T : s.Twins (.shifted first spare) K ρ s') (S : s.Sound) (S' : s'.Sound) {commands : List Command}
    (isPublic : ∀ command ∈ commands, command.isPublic = true) : s.PlaysAlike s' commands where
  answers := by
    obtain ⟨r, e, -⟩ := transcript_yields S commands isPublic
    obtain ⟨r', e', -⟩ := transcript_yields S' commands isPublic
    exact ⟨r, e, r', e', (T.plays S commands isPublic r r' e e').2⟩
  looks := by
    obtain ⟨all, e, -⟩ := stages_yields S commands isPublic
    obtain ⟨all', e', -⟩ := stages_yields S' commands isPublic
    exact ⟨all, e, all', e', (T.passes S S' commands isPublic all all' e e').imp fun _ _ h => h.1⟩

section

variable {config : PoolConfig} {supply : Supply} {pool : Pool} {earlier later : List Command}

/-- A new pool is in order. -/
theorem orderly_ofConfig (W : (Pool.ofConfig config supply).Wf) : (Pool.ofConfig config supply).Orderly where
  tidy := ⟨fun several => absurd several (Nat.not_lt_zero 1), fun _ => Nat.zero_le _⟩
  idleLast := by
    refine SubpageTable.idleLast_of_empty fun x s named => ?_
    obtain ⟨c, held, -⟩ := W.arena.recorded x s named
    exact absurd held (Array.not_mem_empty c)
  thrift := ⟨∅, (claimed_ofConfig W).2⟩

/-- A buffer that is made and dropped at once, from whole pages or from a listed page while there is a chunk, makes
no difference to any later run, on a system that answers alike from then on. -/
theorem dropped_at_once_unnoticed (created : Pool.createOn supply config = .ok pool)
    (lossless : config.pageSize * 2 ^ config.maxOrder < Word.bound)
    (isPublic : ∀ command ∈ earlier, command.isPublic = true)
    (isPublic' : ∀ command ∈ later, command.isPublic = true) :
    ((ofPool pool).play earlier).Yields fun s => ∀ key capacity, 0 < s.pool.arena.chunks.size →
      s.pool.arena.ServedAgain capacity → (s.step (.buffer key capacity)).Yields fun r => r.2 = .done →
        (r.1.step (.drop key)).Yields fun q => q.2 = .done ∧ ∀ refuses : Supply,
          (∀ n size, (s.withSupply refuses).pool.arena.heap.willRefuse n size =
            q.1.pool.arena.heap.willRefuse n size) → (s.withSupply refuses).PlaysAlike q.1 later := by
  have S := sound_ofPool created lossless
  obtain ⟨-, rfl⟩ := eq_ofConfig created
  apply (play_invariant S earlier isPublic (fun W turn O => O.turn W turn) (orderly_ofConfig S.wf.pool)).mono
  intro s ⟨S, O⟩ key capacity some served
  apply ((step_yields S (.buffer key capacity) rfl).and_gives (buffer_makesBuffer s key capacity)).mono
  rintro ⟨t, answer⟩ ⟨effect, makes⟩ done
  obtain ⟨p, id, made⟩ := makes done
  apply ((step_yields effect.sound (.drop key) rfl).and_gives (made.drop_restores S.wf O some served)).mono
  rintro _ ⟨effect', q, rfl, restored⟩
  refine ⟨rfl, fun refuses answers => ?_⟩
  have twins := twins_of_restored S.wf restored effect'.sound.wf.pool answers
  exact twins.playsAlike (S.withSupply refuses) effect'.sound isPublic'

/-- A buffer that needs a second chunk, which goes when the buffer is dropped; the next buffer gets a third one. -/
theorem dropped_at_once_unnoticed_grown : ∃ s r q,
    (ofPool (.ofConfig singlePages .full)).play [.buffer 0 3] = .ok s ∧ s.step (.buffer 1 4096) = .ok r ∧
      r.2 = .done ∧ r.1.step (.drop 1) = .ok q ∧
        ∃ refuses, (s.withSupply refuses).PlaysAlike q.1 [.buffer 2 4096, .info 2, .stats] := by
  obtain ⟨s, played, unnoticed⟩ := dropped_at_once_unnoticed
    (show Pool.createOn .full singlePages = .ok (.ofConfig singlePages .full) from rfl) (by decide)
    (show ∀ command ∈ [.buffer 0 3], Command.isPublic command = true by decide)
    (show ∀ command ∈ [.buffer 2 4096, .info 2, .stats], Command.isPublic command = true by decide)
  have seen : ((ofPool (.ofConfig singlePages .full)).play [.buffer 0 3]).toOption.map (fun s =>
      (s.pool.arena.chunks.size, s.pool.arena.classOf (s.pool.arena.rounded 4096),
        (s.step (.buffer 1 4096)).toOption.any fun r => r.2.isDone)) = some (1, .ok .normal, true) := by
    decide +kernel
  have now := Checked.eq_of_seen seen played
  rw [Prod.mk.injEq, Prod.mk.injEq] at now
  obtain ⟨chunks, normal, done⟩ := now
  obtain ⟨r, made, dropped⟩ := unnoticed 1 4096 (by rw [chunks]; decide) (.inl normal)
  rw [made] at done
  have answer := Answer.isDone_iff.1 done
  obtain ⟨q, gone, -, alike⟩ := dropped answer
  -- From then on the system answers as it would have done without the pair.
  refine ⟨s, r, q, played, made, answer, gone, _, alike
    (fun m size => q.1.pool.arena.heap.willRefuse (m - s.pool.arena.heap.attempts) size) fun n size => ?_⟩
  exact congrArg (fun n => q.1.pool.arena.heap.willRefuse n size) (Nat.add_sub_cancel_left ..)

end

end Session

end BufferPool
