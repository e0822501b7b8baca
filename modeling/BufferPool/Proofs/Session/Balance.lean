import BufferPool.Proofs.Session.Kept
import BufferPool.Proofs.Session.Pages

/-!
# Counters over a run

Whatever a caller does with a new pool, its counters balance (`Session.Balanced`) with the figures of the pool,
with the leases that are held, and with the answers that the requests got. The chunks are counted as
destroyed when the pool goes, and nothing is counted any more after that (`Pool.Vacant`).
-/

namespace BufferPool

open Checked

/-- A request for a lease, and whether it was granted. -/
structure Request where
  capacity : Nat
  maxCapacity : Nat
  granted : Bool

/-- Whether a request passed the ceiling. -/
def Request.admitted (r : Request) : Bool := decide (r.capacity ≤ r.maxCapacity)

variable {granted admitted : Nat}

namespace Pool

variable {p p' : Pool}

/-- A pool that is gone: no core has a lease, and the counters balance with nothing. -/
structure Vacant (p : Pool) (granted admitted : Nat) : Prop where
  free : ∀ i, (p.core i).isBound = false
  balance : p.arena.counters.Balance granted 0 0 0 p.moves admitted

theorem leases_eq_nil (free : ∀ i, (p.core i).isBound = false) : p.leases = [] :=
  List.eq_nil_iff_forall_not_mem.2 fun l mem => by
    obtain ⟨i, lease⟩ := mem_leases.1 mem
    have unbound := free i
    rw [Core.isBound_of_lease lease] at unbound
    cases unbound

/-- Nothing is out of a pool whose cores have no leases, and when its chunks go, none are held. -/
theorem Booked.vacant (W : p.Wf) (B : p.Booked granted admitted) (free : ∀ i, (p.core i).isBound = false)
    (same : ∀ i, p'.core i = p.core i) (moves : p'.moves = p.moves) (counters : p'.arena.counters =
      { p.arena.counters with chunksDestroyed := p.arena.counters.chunksDestroyed + p.arena.chunks.size }) :
    p'.Vacant granted admitted := by
  have none := leases_eq_nil free
  have out : p.boundCores.card = 0 := by rw [← length_leases, none]; rfl
  have active : p.arena.activeLeases = 0 := by rw [W.activeLeases_eq, none]; rfl
  have counts := B.counts
  unfold Arena.Counts at counts
  rw [out, active] at counts
  refine ⟨fun i => by rw [same, free], ?_⟩
  rw [counters, moves]
  exact ⟨counts.leased, counts.out, counts.pooled, counts.chunks, counts.moves, counts.attempts⟩

/-- The holders of cores keep the figures in agreement. -/
theorem kept_booked : Kept fun p => p.Booked granted admitted where
  modifyCore id _ same B := B.modifyCore id same
  release id B := B.release id
  setCapacity id capacity B := B.setCapacity id capacity
  setBytes id index bytes B := B.setBytes id index bytes

/-- Nothing can be done with cores without leases. -/
theorem kept_vacant : Kept fun p => p.Vacant granted admitted where
  modifyCore id _ same V := ⟨fun i => (isBound_modifyCore same i).trans (V.free i), V.balance⟩
  release {p} id V := by
    have fewer : (p.modifyCore id fun c => { c with refs := (p.core id).refs - 1 }).Vacant granted admitted :=
      ⟨fun i => (isBound_modifyCore (by intro c; rfl) i).trans (V.free i), V.balance⟩
    have unbound := Core.isBound_eq_false.1 (fewer.free id)
    unfold release
    refine .guard fun _ => ?_
    dsimp only
    split
    · unfold reclaim
      rw [unbound]
      exact gives_pure.2 fewer
    · exact gives_pure.2 fewer
  setCapacity {p} id capacity V := by
    have unbound := Core.isBound_eq_false.1 (V.free id)
    unfold setCapacity
    dsimp only
    split
    · exact gives_pure.2 V
    · rw [Core.bound, unbound]
      exact gives_error
  setBytes {p} id index bytes V := by
    have unbound := Core.isBound_eq_false.1 (V.free id)
    unfold setBytes
    dsimp only
    split
    · exact gives_pure.2 V
    · rw [Core.bound, unbound]
      exact gives_error

end Pool

namespace Session

variable {s : Session} {command : Command}

/-! ## Requests -/

/-- The request that an answer belongs to; some answers say that none was made. -/
def Answer.requests (capacity maxCapacity : Nat) : Answer → List Request
  | .done => [⟨capacity, maxCapacity, true⟩]
  | .refused _ => [⟨capacity, maxCapacity, false⟩]
  | _ => []

/-- The requests that a command made of the pool, whose configuration has a ceiling. -/
def requests (ceiling : Nat) : Command × Answer → List Request
  | (.buffer _ capacity, answer) => answer.requests capacity ceiling
  | (.allocate _ capacity maxCapacity, answer) => answer.requests capacity maxCapacity
  | (.fill _ _ capacity, .leases locators stopped) =>
    List.replicate locators.length ⟨capacity, ceiling, true⟩ ++
      stopped.toList.map fun _ => ⟨capacity, ceiling, false⟩
  | _ => []

theorem requests_of_not_asks (quiet : command.asks = false) (ceiling : Nat) (answer : Answer) :
    requests ceiling (command, answer) = [] := by
  cases command <;> first | rfl | cases quiet

theorem makeBuffer_booked (B : s.pool.Booked granted admitted) {key capacity maxCapacity : Nat} :
    (s.makeBuffer key capacity maxCapacity).Gives fun r => r.1.pool.Booked
      (granted + (r.2.requests capacity maxCapacity).countP Request.granted)
      (admitted + (r.2.requests capacity maxCapacity).countP Request.admitted) := by
  have one : ∀ b : Bool, ([⟨capacity, maxCapacity, b⟩] : List Request).countP Request.granted = b.toNat ∧
      ([⟨capacity, maxCapacity, b⟩] : List Request).countP Request.admitted =
        (decide (capacity ≤ maxCapacity)).toNat := fun b => by
    cases b <;> simp [List.countP_cons, Request.admitted, Bool.toNat, Bool.cond_eq_ite]
  unfold makeBuffer
  split
  · exact gives_pure.2 B
  · split
    · exact gives_pure.2 B
    · refine B.allocate.bind ?_
      intro ⟨p, answer⟩ booked
      cases answer with
      | error refusal =>
        refine gives_pure.2 ?_
        rw [Answer.requests, (one false).1, (one false).2]
        exact booked
      | ok id =>
        refine gives_pure.2 ?_
        rw [Answer.requests, (one true).1, (one true).2]
        exact booked

/-- The requests of several buffers are granted up to the one that is refused. -/
theorem countP_fill {key n capacity ceiling : Nat} {locators : List (Option Locator)}
    {stopped : Option Refusal} :
    (requests ceiling (.fill key n capacity, .leases locators stopped)).countP Request.granted =
        locators.length ∧
      (requests ceiling (.fill key n capacity, .leases locators stopped)).countP Request.admitted =
        (locators.length + stopped.toList.length) * (decide (capacity ≤ ceiling)).toNat := by
  constructor
  · cases stopped <;> simp [requests, List.countP_replicate]
  · by_cases within : capacity ≤ ceiling <;>
      cases stopped <;> simp [requests, List.countP_replicate, Request.admitted, within]

theorem makeBuffers_booked (B : s.pool.Booked granted admitted) {key capacity : Nat} (n : Nat) :
    (s.makeBuffers key capacity n).Gives fun r => r.1.pool.Booked (granted + r.2.1.length)
      (admitted + (r.2.1.length + r.2.2.toList.length) *
        (decide (capacity ≤ s.pool.config.defaultMaxCapacity)).toNat) := by
  induction n generalizing s key granted admitted with
  | zero => exact gives_ok.2 (by simpa using B)
  | succ n ih =>
    unfold makeBuffers
    refine (B.allocate.and Pool.allocate_config).bind ?_
    rintro ⟨p, answer⟩ ⟨booked, config⟩
    cases answer with
    | error refusal => exact gives_pure.2 (by simpa [Except.toBool, withPool] using booked)
    | ok id =>
      refine .skip fun locator => (ih booked).bind ?_
      rintro ⟨s', locators, stopped⟩ kept
      refine gives_pure.2 ?_
      simp only [withPool, withHandle, config] at kept
      simp only [List.length_cons]
      rw [show locators.length + 1 = 1 + locators.length from Nat.add_comm .., Nat.add_assoc 1, Nat.add_mul,
        Nat.one_mul, ← Nat.add_assoc, ← Nat.add_assoc]
      exact kept

/-- What a command does to the figures of a pool, according to its answer. -/
theorem run_booked (B : s.pool.Booked granted admitted) (isPublic : command.isPublic = true) :
    (s.run command).Gives fun r => r.1.pool.Booked
      (granted + (requests s.pool.config.defaultMaxCapacity (command, r.2)).countP Request.granted)
      (admitted + (requests s.pool.config.defaultMaxCapacity (command, r.2)).countP Request.admitted) := by
  cases asks : command.asks with
  | false =>
    refine (run_kept Pool.kept_booked B isPublic fun other => ?_).mono fun r kept => ?_
    · rw [asks] at other
      cases other
    · rw [requests_of_not_asks asks]
      exact kept
  | true =>
    cases command with
    | buffer key capacity => exact makeBuffer_booked B
    | allocate key capacity maxCapacity => exact makeBuffer_booked B
    | fill key n capacity =>
      rw [run, fill]
      split
      · exact gives_pure.2 B
      · split
        · exact gives_pure.2 B
        · refine (makeBuffers_booked B n).bind ?_
          rintro ⟨s', locators, stopped⟩ kept
          refine gives_pure.2 ?_
          rw [countP_fill.1, countP_fill.2]
          exact kept
    | _ => cases asks

/-- Without the pool no request is made. -/
theorem requests_of_detached (detached : s.attached = false) (ceiling : Nat) :
    (s.run command).Gives fun r => requests ceiling (command, r.2) = [] := by
  cases asks : command.asks with
  | false => exact fun r _ => requests_of_not_asks asks ceiling r.2
  | true =>
    cases command with
    | buffer key capacity =>
      rw [run, makeBuffer, detached]
      split <;> exact gives_pure.2 rfl
    | allocate key capacity maxCapacity =>
      rw [run, makeBuffer, detached]
      split <;> exact gives_pure.2 rfl
    | fill key n capacity =>
      rw [run, fill, detached]
      split <;> exact gives_pure.2 rfl
    | _ => cases asks

/-! ## Sessions -/

/-- The figures of a session after so many requests were granted of those that passed the ceiling. -/
structure Audited (s : Session) (granted admitted : Nat) : Prop where
  opened : s.closed = false → s.pool.Booked granted admitted
  ended : s.closed = true → s.pool.Vacant granted admitted

/-- The counters of a session, with the figures of its pool, the leases that are held, and the requests that
were made. -/
structure Balanced (s : Session) (stats : PoolStats) (requests : List Request) : Prop where
  pooled : s.pool.arena.counters.leasedTiny + s.pool.arena.counters.leasedSmall +
    s.pool.arena.counters.leasedNormal = s.pool.arena.counters.returnedPooled + stats.activeLeases
  unpooled : s.pool.arena.counters.leasedHuge =
    s.pool.arena.counters.returnedUnpooled + s.leases.countP fun l => !l.isPooled
  live : s.pool.arena.counters.live = s.leases.length
  leased : s.pool.arena.counters.leased = requests.countP Request.granted + s.pool.arena.counters.moved
  moved : s.pool.arena.counters.moved = stats.moves
  /-- Without a pool no chunks are held. -/
  chunks : s.pool.arena.counters.chunksCreated =
    s.pool.arena.counters.chunksDestroyed + if s.closed then 0 else stats.chunks
  attempts : s.pool.arena.counters.recyclerHits + s.pool.arena.counters.recyclerMisses =
    requests.countP Request.admitted

/-- The counters that balance with the leases that are held. -/
theorem balanced_of_balance {stats : PoolStats} {all : List Request} (moves : stats.moves = s.pool.moves)
    (active : stats.activeLeases = s.leases.countP Lease.isPooled)
    (h : s.pool.arena.counters.Balance (all.countP Request.granted) s.leases.length stats.activeLeases
      (if s.closed then 0 else stats.chunks) s.pool.moves (all.countP Request.admitted)) :
    s.Balanced stats all where
  pooled := h.pooled
  unpooled := by
    have out := h.out
    have pooled := h.pooled
    have split := List.length_eq_countP_add_countP (l := s.leases) Lease.isPooled
    have others : (s.leases.countP fun l => !l.isPooled) =
        s.leases.countP fun l => decide (¬ l.isPooled = true) :=
      List.countP_congr fun l _ => by simp
    unfold Counters.leasedPooled at pooled
    unfold Counters.leased Counters.returned at out
    omega
  live := by
    have out := h.out
    unfold Counters.live
    unfold Counters.returned at out
    omega
  leased := h.leased
  moved := h.moves.trans moves.symm
  chunks := h.chunks
  attempts := h.attempts


theorem Audited.balanced (W : s.Wf) {all : List Request}
    (A : s.Audited (all.countP Request.granted) (all.countP Request.admitted)) :
    ∃ stats, s.pool.stats = .ok stats ∧ s.Balanced stats all := by
  have used := Arena.usedPages_eq W.pool.arena
  have active := Arena.activeSubpages_eq W.pool.arena
  have held : s.pool.arena.activeLeases = s.leases.countP Lease.isPooled := by
    rw [W.leases_eq]
    exact W.pool.activeLeases_eq
  refine ⟨_, by rw [Pool.stats, used, active]; rfl, balanced_of_balance rfl held ?_⟩
  cases closed : s.closed with
  | false =>
    have counts := (A.opened closed).counts
    rw [← Pool.length_leases, ← W.leases_eq] at counts
    exact counts
  | true =>
    have vacant := A.ended closed
    have balance := vacant.balance
    have none := W.leases_eq.trans (Pool.leases_eq_nil vacant.free)
    simp only [held, none]
    exact balance

/-- Every chunk that is destroyed is counted. -/
theorem counters_countDestroyed (p : Pool) (n : Nat) : (countDestroyed p n).arena.counters =
    { p.arena.counters with chunksDestroyed := p.arena.counters.chunksDestroyed + n } := by
  induction n with
  | zero => rfl
  | succ n ih =>
    change (countDestroyed p n).arena.counters.count .chunkDestroyed = _
    rw [ih]
    rfl

/-- When nobody refers to the arena any more, nobody has a lease. -/
theorem Wf.free_of_unreferenced (W : s.Wf) (unreferenced : s.isReferenced = false) (i : CoreId) :
    (s.pool.core i).isBound = false := by
  cases lease : (s.pool.core i).lease with
  | none => exact Core.isBound_eq_false.2 lease
  | some l =>
    obtain ⟨-, used⟩ := W.shared i l lease
    obtain ⟨h, mem, uses⟩ := List.countP_pos_iff.1 used
    rw [isReferenced_of_bound mem (Handle.uses_iff.1 uses) lease] at unreferenced
    cases unreferenced

/-- The chunks go when nobody refers to the arena any more, and are counted. -/
theorem Audited.settle (W : s.Wf) (A : s.Audited granted admitted) : s.settle.Audited granted admitted := by
  unfold Session.settle
  split
  · exact A
  · rename_i gone
    simp only [Bool.or_eq_true, not_or, Bool.not_eq_true] at gone
    obtain ⟨counters, e, -⟩ := countDestroyed_eq s.pool s.pool.arena.chunks.size
    refine ⟨nofun, fun _ => (A.opened gone.1).vacant W.pool (W.free_of_unreferenced gone.2) (fun i => ?_) ?_ ?_⟩
    · dsimp only
      rw [e]
      rfl
    · dsimp only
      rw [e]
    · exact counters_countDestroyed _ _

/-- A step changes the figures according to its answer. -/
theorem step_audited (S : s.Sound) (A : s.Audited granted admitted) (isPublic : command.isPublic = true) :
    (s.step command).Gives fun r => r.1.Audited
      (granted + (requests s.pool.config.defaultMaxCapacity (command, r.2)).countP Request.granted)
      (admitted + (requests s.pool.config.defaultMaxCapacity (command, r.2)).countP Request.admitted) := by
  obtain ⟨⟨s', answer⟩, e, effect⟩ := run_yields S.wf command isPublic
  have ran : s'.Audited
      (granted + (requests s.pool.config.defaultMaxCapacity (command, answer)).countP Request.granted)
      (admitted + (requests s.pool.config.defaultMaxCapacity (command, answer)).countP Request.admitted) := by
    constructor
    · intro opened
      exact run_booked (A.opened (effect.closed.symm.trans opened)) isPublic _ e
    · intro ended
      have closed := effect.closed.symm.trans ended
      have detached : s.attached = false := by
        cases attached : s.attached with
        | false => rfl
        | true => exact (isReferenced_of_attached attached).symm.trans (S.ended closed)
      rw [requests_of_detached detached _ _ e]
      exact run_kept Pool.kept_vacant (A.ended closed) isPublic (fun _ => detached) _ e
  unfold step
  rw [e]
  exact gives_pure.2 (ran.settle effect.wf)

/-- A run changes the figures according to its answers. -/
theorem transcript_audited (S : s.Sound) (A : s.Audited granted admitted) (commands : List Command)
    (isPublic : ∀ command ∈ commands, command.isPublic = true) :
    (s.transcript commands).Yields fun r => r.1.Sound ∧ r.1.Audited
      (granted + (r.2.flatMap (requests s.pool.config.defaultMaxCapacity)).countP Request.granted)
      (admitted + (r.2.flatMap (requests s.pool.config.defaultMaxCapacity)).countP Request.admitted) := by
  induction commands generalizing s granted admitted with
  | nil => exact yields_ok.2 ⟨S, A⟩
  | cons command rest ih =>
    have first := isPublic command List.mem_cons_self
    refine ((step_yields S command first).and_gives (step_audited S A first)).bind ?_
    intro ⟨s', answer⟩ ⟨effect, audited⟩
    have config : s'.pool.config = s.pool.config :=
      effect.advances.course.invariant (P := fun p => p.config = s.pool.config) S.wf.pool
        (fun _ turn same => turn.steady.config.trans same) rfl
    refine (ih effect.sound audited fun c hc => isPublic c (List.mem_cons_of_mem _ hc)).bind ?_
    intro ⟨last, entries⟩ ⟨sound, audited⟩
    refine yields_pure.2 ⟨sound, ?_⟩
    rw [config] at audited
    simp only [List.flatMap_cons, List.countP_append, ← Nat.add_assoc]
    exact audited

section

variable {config : PoolConfig} {supply : Supply} {pool : Pool} {commands : List Command}

/-- At the end of any run the counters balance with the figures of the pool, the leases that are held, and the
requests that were made. -/
theorem transcript_balanced (created : Pool.createOn supply config = .ok pool)
    (lossless : config.pageSize * 2 ^ config.maxOrder < Word.bound)
    (isPublic : ∀ command ∈ commands, command.isPublic = true) :
    ((ofPool pool).transcript commands).Yields fun r => ∃ stats, r.1.pool.stats = .ok stats ∧
      r.1.Balanced stats (r.2.flatMap (requests config.defaultMaxCapacity)) := by
  have sound := sound_ofPool created lossless
  obtain ⟨-, rfl⟩ := eq_ofConfig created
  have start : (ofPool (.ofConfig config supply)).Audited 0 0 :=
    ⟨fun _ => Pool.booked_ofConfig config supply, nofun⟩
  refine (transcript_audited sound start commands isPublic).mono ?_
  intro r ⟨sound, audited⟩
  simp only [Nat.zero_add] at audited
  exact audited.balanced sound.wf

/-- The default configuration, a request that is granted, one that is too large for its ceiling, and the end. -/
theorem transcript_balanced_default :
    ∃ r, (ofPool (.ofConfig {} .full)).transcript
        [.buffer 0 100, .allocate 1 2 1, .setCapacity 0 9000, .drop 0, .detach] = .ok r ∧
      ∃ stats, r.1.pool.stats = .ok stats ∧
        r.1.Balanced stats (r.2.flatMap (requests ({} : PoolConfig).defaultMaxCapacity)) :=
  transcript_balanced (show Pool.createOn .full {} = .ok (.ofConfig {} .full) from rfl) (by decide) (by decide)

end

end Session

end BufferPool
