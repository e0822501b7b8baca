import BufferPool.Proofs.Session.Run
import BufferPool.Proofs.Size.Growth

/-!
# Room for more bytes

A buffer that is asked for room it has already stays as it is. Otherwise the request is above the ceiling, or
the memory for it cannot be had, or the buffer grows to the capacity that growth chooses (`Size.Grows`), which
is enough and inside the ceiling (`Session.MakesRoom`).
-/

namespace BufferPool

namespace Session

variable {s : Session} {key additional : Nat} {b : Buffer}

/-- A buffer that has grown for more bytes: it has room for them behind the writer, and inside its ceiling. -/
structure GrowsFor (s : Session) (b : Buffer) (additional : Nat) (s' : Session) : Prop where
  word : (s.pool.core b.core).writer + additional < Word.bound
  chosen : b.capacity s'.pool =
    Size.grown ((s.pool.core b.core).writer + additional) (s.pool.core b.core).maxCapacity
  enough : (s.pool.core b.core).writer + additional ≤ b.capacity s'.pool
  ceiling : b.capacity s'.pool ≤ (s.pool.core b.core).maxCapacity
  larger : b.capacity s.pool < b.capacity s'.pool
  reader : (s'.pool.core b.core).reader = (s.pool.core b.core).reader
  writer : (s'.pool.core b.core).writer = (s.pool.core b.core).writer
  handles : s'.handles = s.handles

/-- What becomes of a request for room. -/
structure MakesRoom (s : Session) (b : Buffer) (additional : Nat) (r : Session × Answer) : Prop where
  enough : additional ≤ b.capacity s.pool - (s.pool.core b.core).writer → r = (s, .done)
  answered : r.2 = .done ∨ ∃ refusal, r.2 = .refused refusal
  exceeded : b.capacity s.pool - (s.pool.core b.core).writer < additional →
    ((∃ requested most, r.2 = .refused (.capacityExceeded requested most)) ↔
      (s.pool.core b.core).maxCapacity < Word.addClamped (s.pool.core b.core).writer additional)
  grown : b.capacity s.pool - (s.pool.core b.core).writer < additional → r.2 = .done →
    s.GrowsFor b additional r.1

/-- A buffer that was made to grow has cursors where they were. -/
theorem growsFor (W : s.Wf) {l : Lease} (lease : (s.pool.core b.core).lease = some l)
    (more : l.length - (s.pool.core b.core).writer < additional) {p : Pool}
    (grown : b.Grown s.pool additional p) : s.GrowsFor b additional (s.withPool p).settle := by
  have fits := W.pool.cores _ l lease
  have enough := Size.le_grown grown.ceiling
  have inside := fits.inside
  obtain ⟨l', length, core⟩ := grown.resizes.core
  rw [Pool.clamp_of_le fits.ordered (by omega)] at core
  have after : (s.withPool p).settle.pool.core b.core = p.core b.core := (settle_pool _ _).1
  have capacity : b.capacity (s.withPool p).settle.pool =
      Size.grown ((s.pool.core b.core).writer + additional) (s.pool.core b.core).maxCapacity := by
    rw [Buffer.capacity, after, ← length]
    exact Core.capacity_eq (by rw [core])
  refine
    { word := grown.word
      chosen := capacity
      enough := by rw [capacity]; exact enough
      ceiling := by rw [capacity]; exact Size.grown_le grown.ceiling
      larger := ?_
      reader := by rw [after, core]
      writer := by rw [after, core]
      handles := handles_settle _ }
  rw [capacity, Buffer.capacity_eq lease]
  omega

theorem step_ensureWritable (W : s.Wf) (found : s.handles.get? key = some (.buffer b)) (additional : Nat) :
    (s.step (.ensureWritable key additional)).Yields (s.MakesRoom b additional) := by
  obtain ⟨l, lease, -⟩ := W.core_of_get? found rfl
  have capacity : b.capacity s.pool = l.length := Buffer.capacity_eq lease
  rcases Buffer.ensureWritable_cases W.pool lease additional with
    ⟨enough, e⟩ | ⟨more, beyond, e⟩ | ⟨more, ceiling, ⟨p, answer⟩, e, outcome⟩
  · -- there is room, and the holder of the buffer keeps the chunks
    refine ⟨_, step_onBuffer rfl found e, fun _ => ?_, .inl rfl, fun less => ?_, fun less => ?_⟩
    · rw [settle_of_referenced (s := s.withPool s.pool) (W.isReferenced found rfl)]
      rfl
    · omega
    · omega
  · refine ⟨_, step_onBuffer rfl found e, fun enough => ?_, .inr ⟨_, rfl⟩, fun _ => ?_, nofun⟩
    · omega
    · exact iff_of_true ⟨_, _, rfl⟩ beyond
  · refine ⟨_, step_onBuffer rfl found e, fun enough => ?_, ?_, fun _ => ?_, fun _ done => ?_⟩
    · omega
    · rcases outcome with ⟨refusal, rfl, -⟩ | ⟨rfl, -⟩
      · exact .inr ⟨refusal, rfl⟩
      · exact .inl rfl
    · refine iff_of_false (fun exceeded => ?_) (Nat.not_lt.2 ceiling)
      obtain ⟨requested, most, refused⟩ := exceeded
      rcases outcome with ⟨refusal, rfl, short, -⟩ | ⟨rfl, -⟩
      · cases refused
        cases short
      · cases refused
    · rcases outcome with ⟨refusal, rfl, -⟩ | ⟨-, grown⟩
      · cases done
      · exact growsFor W lease more grown

section

variable {config : PoolConfig} {supply : Supply} {pool : Pool} {commands : List Command}

/-- The choice of the next capacity stays in machine words, between what is needed and the ceiling, and in
order; so at every state of a run a buffer is given all the room that it asks for, as far as its ceiling and the
memory go. -/
theorem play_makes_room (created : Pool.createOn supply config = .ok pool)
    (lossless : config.pageSize * 2 ^ config.maxOrder < Word.bound)
    (isPublic : ∀ command ∈ commands, command.isPublic = true) :
    (∀ least ceiling, least ≤ ceiling → ceiling < Word.bound → Size.Grows least ceiling) ∧
    ((ofPool pool).play commands).Yields fun s =>
      ∀ key b, s.handles.get? key = some (.buffer b) → ∀ additional,
        (s.step (.ensureWritable key additional)).Yields (s.MakesRoom b additional) := by
  refine ⟨fun least ceiling => Size.grows, ?_⟩
  apply (play_yields (sound_ofPool created lossless) commands isPublic).mono
  intro s sound key b found additional
  exact step_ensureWritable sound.wf found additional

/-- The default configuration, and a buffer that is written up to its end. -/
theorem play_makes_room_default :
    (∀ least ceiling, least ≤ ceiling → ceiling < Word.bound → Size.Grows least ceiling) ∧
    ((ofPool (.ofConfig {} .full)).play [.allocate 0 3 100, .write 0 ⟨#[1, 2, 3]⟩]).Yields fun s =>
      ∀ key b, s.handles.get? key = some (.buffer b) → ∀ additional,
        (s.step (.ensureWritable key additional)).Yields (s.MakesRoom b additional) :=
  play_makes_room (show Pool.createOn .full {} = .ok (.ofConfig {} .full) from rfl) (by decide) (by decide)

end

end Session

end BufferPool
