import BufferPool.Proofs.Session.Run

/-!
# Cursors over a run

After any run the cursors of every handle are in order, and inside what the handle covers
(`Session.CursorsInside`). A view that follows its buffer may have its writer beyond the end once the buffer
has shrunk; its accesses are refused there.
-/

namespace BufferPool

namespace Session

variable {s : Session}

/-- The cursors of all handles are where they have to be. -/
structure CursorsInside (s : Session) : Prop where
  buffer : ∀ key b, s.handles.get? key = some (.buffer b) → ∃ fast, b.fastCapacity s.pool = .ok fast ∧
    (s.pool.core b.core).reader ≤ (s.pool.core b.core).writer ∧
    (s.pool.core b.core).writer ≤ b.capacity s.pool ∧ b.capacity s.pool ≤ fast ∧
    b.capacity s.pool ≤ (s.pool.core b.core).maxCapacity
  view : ∀ key v, s.handles.get? key = some (.view v) → v.reader ≤ v.writer ∧
    ∀ length, v.length = some length → v.capacity s.pool = length ∧ v.writer ≤ length

theorem Wf.cursorsInside (W : s.Wf) : s.CursorsInside where
  buffer key b found := by
    obtain ⟨l, lease, -⟩ := W.core_of_get? found rfl
    have fits := W.pool.cores _ l lease
    rw [Buffer.fastCapacity, Core.bound_ok lease, Buffer.capacity_eq lease]
    exact ⟨l.maxLength, rfl, fits.ordered, fits.inside, fits.region, fits.ceiling⟩
  view key v found := by
    have fits : v.Fits := (W.fits _ (Registry.mem_values found)).2
    refine ⟨fits.ordered, fun length slice => ⟨?_, (fits.slice length slice).2⟩⟩
    rw [View.capacity, slice]

section

variable {config : PoolConfig} {supply : Supply} {pool : Pool} {commands : List Command}

/-- After any run all cursors are in order, and whatever command comes next moves the cursors of the handle
that it works on and of no other. -/
theorem play_moves_own_cursors (created : Pool.createOn supply config = .ok pool)
    (lossless : config.pageSize * 2 ^ config.maxOrder < Word.bound)
    (isPublic : ∀ command ∈ commands, command.isPublic = true) :
    ((ofPool pool).play commands).Yields fun s => s.CursorsInside ∧
      ∀ command : Command, command.isPublic = true → (s.step command).Yields (s.Moves command) := by
  apply (play_yields (sound_ofPool created lossless) commands isPublic).mono
  intro s sound
  refine ⟨sound.wf.cursorsInside, fun command isPublic => ?_⟩
  exact (step_yields sound command isPublic).mono fun _ effect => effect.moves

/-- The default configuration, and a buffer that shrinks under two views. -/
theorem play_moves_own_cursors_default :
    ((ofPool (.ofConfig {} .full)).play
      [.buffer 0 100, .setIndex 0 10 60, .slice 1 0 20 30, .duplicate 2 0, .setCapacity 0 40]).Yields
        fun s => s.CursorsInside ∧
          ∀ command : Command, command.isPublic = true → (s.step command).Yields (s.Moves command) :=
  play_moves_own_cursors (show Pool.createOn .full {} = .ok (.ofConfig {} .full) from rfl) (by decide)
    (by decide)

end

end Session

end BufferPool
