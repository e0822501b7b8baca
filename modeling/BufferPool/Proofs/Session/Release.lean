import BufferPool.Proofs.Session.Run

/-!
# Returning leases

A lease belongs to the handles on its core. It comes back to the arena with the last of them and not
before (`Session.Releases`), unless the core exchanges it for another. A core without handles waits for
its next lease, or is forgotten.
-/

namespace BufferPool

namespace Session

variable {s s' : Session} {id : CoreId} {key : Nat} {h : Handle} {command : Command}

/-- A core has a lease as long as it has handles. -/
theorem Wf.isSome_region? (W : s.Wf) (id : CoreId) :
    (s.pool.core id).region?.isSome ↔ 0 < s.sharers id := by
  constructor
  · intro bound
    obtain ⟨r, hr⟩ := Option.isSome_iff_exists.1 bound
    obtain ⟨l, lease, -⟩ := Core.region?_eq_some.1 hr
    exact (W.shared id l lease).2
  · intro used
    cases lease : (s.pool.core id).lease with
    | none => exact absurd (W.sharers_free lease) (Nat.ne_of_gt used)
    | some l => rw [Core.region?_eq lease]; rfl

theorem Wf.lease_eq_none (W : s.Wf) (id : CoreId) :
    (s.pool.core id).lease = none ↔ s.sharers id = 0 := by
  have bound := W.isSome_region? id
  rw [← Core.region?_eq_none, ← Option.not_isSome_iff_eq_none, bound, Nat.pos_iff_ne_zero, not_not]

/-- The cores that had handles and have none any more. -/
def abandoned (s s' : Session) : Finset CoreId :=
  (Finset.range s.pool.store.cores.size).filter fun id => 0 < s.sharers id ∧ s'.sharers id = 0

/-- The cores that lose their handles are those that lose their lease. -/
theorem Wf.freed_eq (W : s.Wf) (W' : s'.Wf) : s.pool.freed s'.pool = s.abandoned s' := by
  refine Finset.filter_congr fun i _ => ?_
  rw [W.isSome_region?, Option.isNone_iff_eq_none, Core.region?_eq_none, W'.lease_eq_none]

/-- How leases come back to the arena. -/
inductive Releases (s s' : Session) : Prop where
  /-- One lease comes back for each core that has lost its last handle. The other cores keep their
  regions. -/
  | abandons (moves : s'.pool.moves = s.pool.moves)
      (returned : s'.pool.arena.counters.returned =
        s.pool.arena.counters.returned + (s.abandoned s').card)
      (kept : ∀ id, 0 < s.sharers id → 0 < s'.sharers id →
        (s'.pool.core id).region? = (s.pool.core id).region?)
  /-- One core exchanges its lease, and the old one comes back. The other cores keep their handles and
  regions. -/
  | exchanges {id : CoreId} (moves : s'.pool.moves = s.pool.moves + 1)
      (returned : s'.pool.arena.counters.returned = s.pool.arena.counters.returned + 1)
      (used : 0 < s.sharers id) (held : ∀ i, 0 < s.sharers i → 0 < s'.sharers i)
      (kept : ∀ i, i ≠ id → 0 < s.sharers i → (s'.pool.core i).region? = (s.pool.core i).region?)

/-- The leases that a drain takes back are those of the cores that it leaves without handles. -/
theorem Releases.of_drains (W : s.Wf) (W' : s'.Wf) (turns : s.pool.Drains s'.pool) :
    s.Releases s' := by
  obtain ⟨returned, moves, kept⟩ := turns.returned
  refine .abandons moves (by rw [returned, W.freed_eq W']) fun id _ used => ?_
  obtain ⟨r, hr⟩ := Option.isSome_iff_exists.1 ((W'.isSome_region? id).2 used)
  rw [hr, kept id r hr]

theorem Advances.releases (h : s.Advances command s') (W : s.Wf) (W' : s'.Wf) : s.Releases s' := by
  cases h.course with
  | fills turns =>
    obtain ⟨returned, moves, kept⟩ := turns.returned
    have regions : ∀ id, 0 < s.sharers id →
        (s'.pool.core id).region? = (s.pool.core id).region? := fun id used => by
      obtain ⟨r, hr⟩ := Option.isSome_iff_exists.1 ((W.isSome_region? id).2 used)
      rw [hr, kept id r hr]
    have none : s.abandoned s' = ∅ := Finset.filter_eq_empty_iff.2 fun id _ gone => by
      have bound := (W.isSome_region? id).2 gone.1
      rw [← regions id gone.1, W'.isSome_region?, gone.2] at bound
      exact Nat.lt_irrefl 0 bound
    exact .abandons moves (by rw [none, returned]; rfl) fun id used _ => regions id used
  | @exchanges id old new turn =>
    obtain ⟨a, -, adds, removes⟩ := turn.between
    have used := (W.isSome_region? id).1 (by rw [Core.region?_eq turn.bound]; rfl)
    refine .exchanges turn.moves (removes.returned.trans (congrArg (· + 1) adds.returned)) used
      (fun i hi => ?_) fun i ne _ => turn.others i ne
    rw [← W'.isSome_region?]
    by_cases here : i = id
    · rw [here, turn.mine]
      rfl
    · rw [turn.others i here]
      exact (W.isSome_region? i).2 hi
  | drains turns => exact .of_drains W W' turns

/-! ## One handle given up -/

/-- Giving a handle up takes it from the handles and no other. -/
theorem handles_dropHandle (e : s.dropHandle key h = .ok s') : s'.handles = s.handles.erase key := by
  unfold dropHandle at e
  cases h with
  | buffer b =>
    simp only at e
    cases freed : b.drop s.pool with
    | error v => rw [freed] at e; cases e
    | ok p => rw [freed] at e; cases e; rfl
  | view v =>
    simp only at e
    cases freed : v.drop s.pool with
    | error v => rw [freed] at e; cases e
    | ok p => rw [freed] at e; cases e; rfl
  | core _ => cases e; rfl
  | subpages _ => cases e; rfl

theorem handles_step_drop (found : s.handles.get? key = some h) {r : Session × Answer}
    (e : s.step (.drop key) = .ok r) : r.1.handles = s.handles.erase key := by
  change (s.drop key >>= fun r => pure (r.1.settle, r.2)) = _ at e
  unfold drop at e
  simp only [found] at e
  cases dropped : s.dropHandle key h with
  | error v => rw [dropped] at e; cases e
  | ok s1 =>
    rw [dropped] at e
    cases e
    rw [handles_settle]
    exact handles_dropHandle dropped

/-- What giving up one handle on a core does. -/
structure Drops (s : Session) (key : Nat) (id : CoreId) (s' : Session) : Prop where
  handles : s'.handles = s.handles.erase key
  gone : (s'.pool.core id).lease = none ↔ s.sharers id = 1
  returned : s'.pool.arena.counters.returned =
    s.pool.arena.counters.returned + if s.sharers id = 1 then 1 else 0

/-- A handle that is dropped takes the lease with it if it was the last one, and only then. -/
theorem drops_of_step (S : s.Sound) (found : s.handles.get? key = some h) (on : h.core? = some id) :
    (s.step (.drop key)).Yields fun r => s.Drops key id r.1 := by
  obtain ⟨r, e, effect⟩ := step_yields S (.drop key) rfl
  have W := S.wf
  have W' := effect.sound.wf
  have handles := handles_step_drop found e
  have count : ∀ i, s.sharers i = r.1.sharers i + if h.uses i then 1 else 0 := fun i => by
    rw [sharers_of_get? W.ordered found, sharers, handles]
  have mine := count id
  rw [if_pos (Handle.uses_iff.2 on)] at mine
  -- The core has a handle less, so the command has not kept them all.
  have turns : s.pool.Drains r.1.pool := by
    cases effect.advances with
    | keeps _ sharers => exact absurd (sharers id) (by omega)
    | drops _ turns => exact turns
  refine ⟨r, e, handles, by rw [W'.lease_eq_none]; omega, ?_⟩
  obtain ⟨returned, -, -⟩ := turns.returned
  rw [returned, W.freed_eq W']
  congr 1
  split
  · rename_i last
    refine Finset.card_eq_one.2 ⟨id, Finset.ext fun i => ?_⟩
    have inside := (W.core_of_get? found on).elim fun l bound => Pool.lt_size_of_bound bound.1
    rw [abandoned, Finset.mem_filter, Finset.mem_range, Finset.mem_singleton]
    constructor
    · intro gone
      by_contra ne
      have same := count i
      rw [if_neg (Handle.uses_ne on ne)] at same
      omega
    · intro equal
      subst equal
      exact ⟨inside, by omega, by omega⟩
  · rename_i more
    refine Finset.card_eq_zero.2 (Finset.filter_eq_empty_iff.2 fun i _ gone => ?_)
    have same := count i
    by_cases here : i = id
    · subst here
      omega
    · rw [if_neg (Handle.uses_ne on here)] at same
      omega

/-! ## Idle cores -/

/-- The cores that wait are distinct, without a lease and without handles, and not too many. -/
structure Waiting (s : Session) (capacity : Nat) : Prop where
  once : s.pool.store.recycler.idle.Nodup
  room : s.pool.store.recycler.idle.length ≤ capacity
  free : ∀ id ∈ s.pool.store.recycler.idle, (s.pool.core id).lease = none ∧ s.sharers id = 0

theorem Wf.waiting (W : s.Wf) : s.Waiting s.pool.store.recycler.capacity where
  once := W.pool.once
  room := W.pool.room
  free id hid := by
    have free := (W.pool.idle id hid).2
    exact ⟨free, (W.lease_eq_none id).1 free⟩

/-! ## Runs -/

/-- The leases of a session belong to the handles on their cores, and come back with the last of them. -/
structure ReturnsOnce (s : Session) (capacity : Nat) : Prop where
  counted : ∀ h ∈ s.handles.values, ∀ id, h.core? = some id →
    ∃ l, (s.pool.core id).lease = some l ∧ (s.pool.core id).refs = s.sharers id
  waiting : s.Waiting capacity
  step : ∀ command : Command, command.isPublic = true → (s.step command).Yields fun r =>
    s.Releases r.1 ∧ (command.givesUp = false → ∀ id, s.sharers id ≤ r.1.sharers id)
  drop : ∀ key h id, s.handles.get? key = some h → h.core? = some id →
    (s.step (.drop key)).Yields fun r => s.Drops key id r.1

theorem Sound.returnsOnce (S : s.Sound) : s.ReturnsOnce s.pool.store.recycler.capacity where
  counted h mem id on := by
    obtain ⟨l, lease⟩ := (S.wf.fits h mem).bound on
    exact ⟨l, lease, (S.wf.shared id l lease).1⟩
  waiting := S.wf.waiting
  step command isPublic := by
    apply (step_yields S command isPublic).mono
    intro r effect
    refine ⟨effect.advances.releases S.wf effect.sound.wf, fun keeps => ?_⟩
    cases effect.advances with
    | keeps _ sharers => exact sharers
    | drops gives _ => exact absurd gives (by rw [keeps]; nofun)
  drop _ _ _ found on := drops_of_step S found on

section

variable {config : PoolConfig} {supply : Supply} {pool : Pool} {commands : List Command}

/-- At every state of a run of the interface, leases come back once. -/
theorem play_returns_once (created : Pool.createOn supply config = .ok pool)
    (lossless : config.pageSize * 2 ^ config.maxOrder < Word.bound)
    (isPublic : ∀ command ∈ commands, command.isPublic = true) :
    ((ofPool pool).play commands).Yields fun s => s.ReturnsOnce config.recyclerCapacity := by
  have start : pool.store.recycler.capacity = config.recyclerCapacity := by
    obtain ⟨-, rfl⟩ := eq_ofConfig created
    rfl
  apply (play_invariant (sound_ofPool created lossless) commands isPublic
    (fun _ turn room => turn.steady.room.trans room) start).mono
  intro s ⟨S, room⟩
  exact room ▸ S.returnsOnce

/-- The default configuration, and a buffer that is dropped before its view. -/
theorem play_returns_once_default :
    ((ofPool (.ofConfig {} .full)).play [.buffer 0 100, .duplicate 1 0, .drop 0]).Yields
      fun s => s.ReturnsOnce 4096 :=
  play_returns_once (show Pool.createOn .full {} = .ok (.ofConfig {} .full) from rfl) (by decide)
    (by decide)

end

end Session

end BufferPool
