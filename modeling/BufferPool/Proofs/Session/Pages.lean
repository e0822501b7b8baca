import BufferPool.Proofs.Pool.Thrift
import BufferPool.Proofs.Session.Release

/-!
# Pages in use

The pages in use are those of the leases that are held, and the carved pages. Once no pooled lease is held,
what is left are the pages that the pool keeps for the slot sizes that were ever leased, whatever the order
in which the leases came back (`Session.Accounts`).
-/

namespace BufferPool

namespace Session

variable {s s' last : Session} {all : List Session} {seen : Finset Nat}

/-- The leases of the cores that have handles. -/
def leases (s : Session) : List Lease :=
  (List.range s.pool.store.cores.size).filterMap fun id =>
    if 0 < s.sharers id then (s.pool.core id).lease else none

/-- No other core has a lease. -/
theorem Wf.leases_eq (W : s.Wf) : s.leases = s.pool.leases := by
  refine List.filterMap_congr fun id _ => ?_
  split
  · rfl
  · rename_i unused
    exact ((W.lease_eq_none id).2 (Nat.eq_zero_of_not_pos unused)).symm

/-- The slot sizes that leases were cut to in a row of sessions. A request grants no lease that it takes back
itself, so each lease of a run is held in one of its sessions. -/
def sizesLeased (all : List Session) : Finset Nat :=
  (all.flatMap fun s => s.leases.filterMap Lease.slotSize?).toFinset

theorem sizesLeased_cons (W : s.Wf) (all : List Session) :
    sizesLeased (s :: all) = s.pool.slotSizes ∪ sizesLeased all := by
  rw [sizesLeased, List.flatMap_cons, List.toFinset_append, W.leases_eq]
  rfl

/-- The figures of the pool are those of the leases that are held. Without pooled leases only the pages are
left that are kept for the slot sizes that were ever leased. -/
structure Accounts (s : Session) (config : PoolConfig) (seen : Finset Nat) (stats : PoolStats) : Prop where
  leases : stats.activeLeases = s.leases.countP Lease.isPooled
  pages : stats.usedPages = stats.activeSubpages +
    ((s.leases.filter Lease.isRun).map fun l => l.maxLength / config.pageSize).sum
  quiet : (∀ l ∈ s.leases, l.isPooled = false) → stats.usedPages = stats.activeSubpages ∧
    stats.activeSubpages = if config.keepLastSubpage then seen.card else if 0 ∈ seen then 1 else 0

theorem Wf.accounts (W : s.Wf) (claimed : s.pool.Claimed) (T : s.pool.Thrift seen) :
    ∃ stats, s.pool.stats = .ok stats ∧ s.Accounts s.pool.config seen stats := by
  have used := claimed.usedPages_eq W.pool
  have active := Arena.activeSubpages_eq W.pool.arena
  refine ⟨_, by rw [Pool.stats, used, active]; rfl, ?_⟩
  constructor
  all_goals rw [W.leases_eq]
  · exact W.pool.activeLeases_eq
  · intro none
    have runs : s.pool.leases.filter Lease.isRun = [] := List.filter_eq_nil_iff.2 fun l mem run => by
      have pooled := Lease.isPooled_iff.2 (Lease.isRun_iff.1 run).1
      rw [none l mem] at pooled
      cases pooled
    refine ⟨?_, T.length_actives W.pool claimed none⟩
    simp only [runs, List.map_nil, List.sum_nil, Nat.add_zero]

/-! ## Runs -/

theorem Trail.sound (t : s.Trail all last) : s.Sound := by
  cases t <;> assumption

/-- Over a row of sessions the sizes that were ever leased add up. -/
theorem Trail.thrift (t : s.Trail all last) (T : s.pool.Thrift seen) :
    last.pool.Thrift (sizesLeased all ∪ seen) := by
  induction t generalizing seen with
  | @done s sound =>
    rw [sizesLeased_cons sound.wf, show sizesLeased [] = ∅ from rfl, Finset.union_empty, T.union_slotSizes]
    exact T
  | @step s s' last all sound course rest ih =>
    have T' := ih (T.course sound.wf.pool course)
    obtain ⟨others, rfl⟩ := rest.head
    -- What the second session leases is counted with the row that starts there.
    have first : s'.pool.slotSizes ⊆ sizesLeased (s' :: others) := by
      rw [sizesLeased_cons rest.sound.wf]
      exact Finset.subset_union_left
    rw [← Finset.union_assoc, Finset.union_eq_left.2 first] at T'
    rw [sizesLeased_cons sound.wf, Finset.union_right_comm, T.union_slotSizes, Finset.union_comm]
    exact T'

section

variable {config : PoolConfig} {supply : Supply} {pool : Pool} {commands : List Command}

/-- A new pool has leased nothing. -/
theorem claimed_ofConfig (W : (Pool.ofConfig config supply).Wf) :
    (Pool.ofConfig config supply).Claimed ∧ (Pool.ofConfig config supply).Thrift ∅ :=
  ⟨Pool.claimed_of_empty W rfl, Pool.thrift_of_empty W rfl rfl (Arena.keepLast_ofConfig config supply)⟩

/-- At the end of any run the figures are those of the leases that are held. -/
theorem play_accounts (created : Pool.createOn supply config = .ok pool)
    (lossless : config.pageSize * 2 ^ config.maxOrder < Word.bound)
    (isPublic : ∀ command ∈ commands, command.isPublic = true) :
    ((ofPool pool).stages commands).Yields fun all => ∃ s stats,
      (ofPool pool).play commands = .ok s ∧ s.pool.stats = .ok stats ∧
        s.Accounts config (sizesLeased all) stats := by
  have S := sound_ofPool created lossless
  obtain ⟨-, rfl⟩ := eq_ofConfig created
  obtain ⟨claimed, T⟩ := claimed_ofConfig S.wf.pool
  apply (stages_yields S commands isPublic).mono
  intro all ⟨s, played, trail⟩
  obtain ⟨sound, claimed, same⟩ := trail.invariant (P := fun p => p.Claimed ∧ p.config = config)
    (fun W turn h => ⟨h.1.turn W turn, turn.steady.config.trans h.2⟩) ⟨claimed, rfl⟩
  obtain ⟨stats, e, accounts⟩ := sound.wf.accounts claimed (trail.thrift T)
  rw [same, Finset.union_empty] at accounts
  exact ⟨s, stats, played, e, accounts⟩

/-- The default configuration, and two buffers that are dropped in the order in which they were made. -/
theorem play_accounts_default :
    ((ofPool (.ofConfig {} .full)).stages [.buffer 0 100, .buffer 1 20000, .drop 0, .drop 1]).Yields
      fun all => ∃ s stats, (ofPool (.ofConfig {} .full)).play
        [.buffer 0 100, .buffer 1 20000, .drop 0, .drop 1] = .ok s ∧ s.pool.stats = .ok stats ∧
          s.Accounts {} (sizesLeased all) stats :=
  play_accounts (show Pool.createOn .full {} = .ok (.ofConfig {} .full) from rfl) (by decide) (by decide)

end

end Session

end BufferPool
