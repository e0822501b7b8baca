import BufferPool.Proofs.Session.Pages

/-!
# The sizes of leases

At every state of a run a lease has the region that a new lease of its length would get, and a buffer that
changes its capacity keeps its region as long as the region would be the same (`Session.SizesMatch`). There
is one exception: a buffer on the smallest region that shrinks to half of it is given another one.
-/

namespace BufferPool

namespace Session

open Size

variable {s : Session} {key n : Nat} {b : Buffer} {l : Lease}

/-- A change of capacity that succeeds in place: the lease has another length and is the same otherwise, and
none was exchanged. -/
structure StaysInPlace (s : Session) (id : CoreId) (l : Lease) (n : Nat) (r : Session × Answer) : Prop where
  answer : r.2 = .done
  lease : (r.1.pool.core id).lease = some { l with length := n }
  moves : r.1.pool.moves = s.pool.moves

/-- The leases of a session are as large as new ones would be, and so they are left by changes of capacity. -/
structure SizesMatch (s : Session) (chunkSize : Nat) : Prop where
  unpooled : ∀ l ∈ s.leases, l.location = .unpooled ↔ chunkSize < l.length
  own : ∀ l ∈ s.leases, l.location = .unpooled → l.maxLength = l.length
  region : ∀ l ∈ s.leases, l.location ≠ .unpooled → l.maxLength = rounded l.length chunkSize
  /-- A pooled lease keeps its region if a request for the new capacity is rounded to it, unless it shrinks to
  half of the smallest region. -/
  resized : ∀ key b l, s.handles.get? key = some (.buffer b) → (s.pool.core b.core).lease = some l →
    l.location ≠ .unpooled → ∀ n ≤ (s.pool.core b.core).maxCapacity, n ≠ l.length →
      (s.step (.setCapacity key n)).Yields fun r => s.StaysInPlace b.core l n r ↔
        rounded n chunkSize = l.maxLength ∧ ¬ (l.maxLength = 16 ∧ 1 ≤ n ∧ n ≤ 8 ∧ n < l.length)
  /-- Otherwise the lease is exchanged. -/
  exchanged : ∀ key b l, s.handles.get? key = some (.buffer b) → (s.pool.core b.core).lease = some l →
    l.location ≠ .unpooled → ∀ n ≤ (s.pool.core b.core).maxCapacity, n ≠ l.length →
      ¬ (rounded n chunkSize = l.maxLength ∧ ¬ (l.maxLength = 16 ∧ 1 ≤ n ∧ n ≤ 8 ∧ n < l.length)) →
        b.setCapacity s.pool n = s.pool.move b.core n

/-- What a buffer that changes its capacity does, the session does. -/
theorem step_setCapacity (found : s.handles.get? key = some (.buffer b)) {p : Pool} {answer : Answered Unit}
    (e : b.setCapacity s.pool n = .ok (p, answer)) :
    s.step (.setCapacity key n) = .ok ((s.withPool p).settle, .ofUnit answer) :=
  step_onBuffer rfl found e

/-- A buffer with a pooled lease stays in place if its lease keeps the region. -/
theorem resized_yields (W : s.Wf) (found : s.handles.get? key = some (.buffer b))
    (lease : (s.pool.core b.core).lease = some l) (pooled : l.location ≠ .unpooled)
    (ceiling : n ≤ (s.pool.core b.core).maxCapacity) (other : n ≠ l.length) :
    (s.step (.setCapacity key n)).Yields fun r => s.StaysInPlace b.core l n r ↔ l.keepsRegion n = true := by
  have resize : b.setCapacity s.pool n = s.pool.resizePooled b.core l n :=
    Pool.setCapacity_of_pooled lease pooled other ceiling
  cases keeps : l.keepsRegion n with
  | true =>
    obtain ⟨p, e, kept⟩ := Pool.resizePooled_of_keeps W.pool lease pooled other ceiling keeps
    refine ⟨_, step_setCapacity found (resize.trans e), iff_of_true ⟨rfl, ?_, ?_⟩ rfl⟩
    · rw [(settle_pool _ _).1]
      exact kept.lease
    · exact (settle_pool _ b.core).2.trans kept.moves
  | false =>
    rw [Pool.resizePooled_of_gives keeps] at resize
    obtain ⟨⟨p, answer⟩, e, outcome⟩ := Pool.move_yields W.pool lease ceiling
    refine ⟨_, step_setCapacity found (resize.trans e), iff_of_false (fun stays => ?_) nofun⟩
    rcases outcome with ⟨refusal, rfl, -⟩ | ⟨rfl, -, moves⟩
    · cases stays.answer
    · have same := (settle_pool _ b.core).2.symm.trans stays.moves
      exact Nat.ne_of_lt (Nat.lt_succ_self _) (same.symm.trans moves)

theorem Wf.sizesMatch (W : s.Wf) (S : s.pool.Sized) : s.SizesMatch s.pool.config.chunkSize := by
  have sized : ∀ l ∈ s.leases, l.Sized s.pool.config.chunkSize := fun l mem => by
    rw [W.leases_eq] at mem
    obtain ⟨i, lease⟩ := Pool.mem_leases.1 mem
    exact S i l lease
  have exactly := W.pool.arena.config
  refine ⟨fun l mem => (sized l mem).unpooled, fun l mem => (sized l mem).own,
    fun l mem _ => (sized l mem).region, fun key b l found lease pooled n ceiling other => ?_,
    fun key b l found lease pooled n ceiling other gives => ?_⟩
  · apply (resized_yields W found lease pooled ceiling other).mono
    intro r stays
    exact stays.trans ((S _ l lease).keepsRegion_iff exactly pooled other)
  · have keeps := (not_congr ((S _ l lease).keepsRegion_iff exactly pooled other)).2 gives
    exact (Pool.setCapacity_of_pooled lease pooled other ceiling).trans
      (Pool.resizePooled_of_gives (Bool.eq_false_of_not_eq_true keeps))

section

variable {config : PoolConfig} {supply : Supply} {pool : Pool} {commands : List Command}

/-- At every state of a run leases are as large as new ones would be. -/
theorem play_sizes_match (created : Pool.createOn supply config = .ok pool)
    (lossless : config.pageSize * 2 ^ config.maxOrder < Word.bound)
    (isPublic : ∀ command ∈ commands, command.isPublic = true) :
    ((ofPool pool).play commands).Yields fun s => s.SizesMatch config.chunkSize := by
  have start : pool.Sized ∧ pool.config = config := by
    obtain ⟨-, rfl⟩ := eq_ofConfig created
    exact ⟨Pool.sized_ofConfig config supply, rfl⟩
  apply (play_invariant (P := fun p => p.Sized ∧ p.config = config) (sound_ofPool created lossless) commands
    isPublic (fun _ turn h => ⟨turn.steady.sized h.1, turn.steady.config.trans h.2⟩) start).mono
  intro s ⟨S, sized, same⟩
  exact same ▸ S.wf.sizesMatch sized

/-- The default configuration, and a buffer that is made larger. -/
theorem play_sizes_match_default :
    ((ofPool (.ofConfig {} .full)).play [.buffer 0 100, .setCapacity 0 400]).Yields
      fun s => s.SizesMatch (PoolConfig.chunkSize {}) :=
  play_sizes_match (show Pool.createOn .full {} = .ok (.ofConfig {} .full) from rfl) (by decide) (by decide)

/-- A pool whose chunks are single pages. -/
def singlePages : PoolConfig := { pageSize := 4096, maxOrder := 0 }

/-- Growing within half of the smallest region is no exception: from 3 bytes to 5, of 16, a buffer stays in
place. -/
theorem grows_in_place_below_half :
    ((ofPool (.ofConfig singlePages .full)).play [.buffer 0 3]).Yields fun s =>
      ∃ b l, s.handles.get? 0 = some (.buffer b) ∧ (s.pool.core b.core).lease = some l ∧
        l.location ≠ .unpooled ∧ 5 ≤ (s.pool.core b.core).maxCapacity ∧ 5 ≠ l.length ∧
          (s.step (.setCapacity 0 5)).Yields fun r => s.StaysInPlace b.core l 5 r ∧
            ¬ (rounded 5 singlePages.chunkSize = l.maxLength ∧ ¬ (l.maxLength = 16 ∧ 1 ≤ 5 ∧ 5 ≤ 8)) := by
  have created : Pool.createOn .full singlePages = .ok (.ofConfig singlePages .full) := rfl
  obtain ⟨s, played, S⟩ := play_yields (sound_ofPool created (by decide)) [.buffer 0 3] (by decide)
  have seen : ((ofPool (.ofConfig singlePages .full)).play [.buffer 0 3]).toOption.map (fun s =>
      (s.handles.get? 0, (s.pool.core 0).lease, (s.pool.core 0).maxCapacity)) =
        some (some (.buffer ⟨0⟩),
          some ⟨⟨1, 0, 4096, false⟩, .pooled ⟨0x4000000000000000⟩, 0, 3, 16⟩, 2147483647) := by
    decide +kernel
  have now := Checked.eq_of_seen seen played
  rw [Prod.mk.injEq, Prod.mk.injEq] at now
  obtain ⟨found, lease, most⟩ := now
  have ceiling : 5 ≤ (s.pool.core 0).maxCapacity := by
    rw [most]
    decide
  refine ⟨s, played, _, _, found, lease, nofun, ceiling, by decide, ?_⟩
  apply (resized_yields S.wf found lease nofun ceiling (by decide)).mono
  intro r stays
  exact ⟨stays.2 (by decide), by decide⟩

end

end Session

end BufferPool
