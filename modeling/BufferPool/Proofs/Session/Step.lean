import BufferPool.Proofs.Session.Commands
import BufferPool.Proofs.Session.Handles

/-!
# Steps

The effect of the remaining commands, and of a step as a whole: the command and, once nobody refers to the
arena any more, the destruction of the chunks. A refusal always comes from somebody who refers to the
arena, so no refused step ends with the destruction.
-/

namespace BufferPool

namespace Session

variable {s s' : Session} {p : Pool} {key : Nat} {command : Command}

/-! ## Commands that only look -/

theorem subpageList_ok (W : p.Wf) : ∀ ids : List SubpageId, ∃ list, subpageList p ids = .ok list
  | [] => ⟨[], rfl⟩
  | id :: rest => by
    obtain ⟨text, et⟩ := W.arena.subpageText_ok id
    obtain ⟨list, el⟩ := subpageList_ok W rest
    simp only [subpageList, et, el, Checked.ok_bind]
    exact ⟨_, rfl⟩

/-- A question to the pool itself. -/
theorem whileAttached_yields (W : s.Wf) {asked : Checked (Session × Answer)}
    (run : asked.Yields fun r => r.1 = s ∧ r.2.isRefusal = false ∧ r.2.isGrant = false) :
    (s.whileAttached asked).Yields (Effect s command) := by
  unfold whileAttached
  split
  · apply run.mono
    intro ⟨s1, answer⟩ outcome
    obtain ⟨rfl, plain, other⟩ := outcome
    exact .idle W plain other
  · exact Checked.yields_ok.2 (.idle W rfl rfl)

theorem stats_yields (W : s.Wf) : (s.run .stats).Yields (Effect s .stats) := by
  obtain ⟨stats, e, -⟩ := W.pool.stats_ok
  apply whileAttached_yields W
  simp only [e, Checked.ok_bind]
  exact Checked.yields_pure.2 ⟨rfl, rfl, rfl⟩

theorem freeSubpages_yields (W : s.Wf) (capacity : Nat) :
    (s.run (.freeSubpages capacity)).Yields (Effect s (.freeSubpages capacity)) := by
  obtain ⟨n, e⟩ := W.pool.arena.freeSubpages_ok capacity
  apply whileAttached_yields W
  simp only [e, Checked.ok_bind]
  exact Checked.yields_pure.2 ⟨rfl, rfl, rfl⟩

theorem subpages_yields (W : s.Wf) : (s.run .subpages).Yields (Effect s .subpages) := by
  obtain ⟨list, e⟩ := subpageList_ok W.pool s.pool.arena.subpages
  apply whileAttached_yields W
  simp only [e, Checked.ok_bind]
  exact Checked.yields_pure.2 ⟨rfl, rfl, rfl⟩

theorem held_yields (W : s.Wf) (key : Nat) : (s.run (.held key)).Yields (Effect s (.held key)) := by
  change (s.held key).Yields _
  unfold held
  cases s.handles.get? key with
  | none => exact Checked.yields_pure.2 (.idle W rfl rfl)
  | some handle =>
    cases handle with
    | subpages ids =>
      obtain ⟨list, e⟩ := subpageList_ok W.pool ids
      simp only [e, Checked.ok_bind]
      exact Checked.yields_pure.2 (.idle W rfl rfl)
    | buffer _ => exact Checked.yields_pure.2 (.idle W rfl rfl)
    | view _ => exact Checked.yields_pure.2 (.idle W rfl rfl)
    | core _ => exact Checked.yields_pure.2 (.idle W rfl rfl)

/-! ## Commands that leave the pool alone -/

theorem effect_hold (W : s.Wf) (key : Nat) : Effect s (.hold key) (s.hold key) := by
  unfold hold
  split
  · exact .idle W rfl rfl
  · rename_i used
    split
    · exact .idle W rfl rfl
    · rename_i attached
      have free := get?_of_contains used
      refine ⟨W.kept free _, fun m H => H.same fun _ _ _ _ _ _ => rfl, nofun,
        .of_kept W (fun _ _ => Cursors.after_of_no_target rfl)
          (fun _ _ found => Registry.get?_insert_of_free free found) (fun _ _ _ => rfl),
        .keeps (Pool.Rests.refl W.pool).course fun i => ?_, Pool.keepsCeilings_of_cores fun _ _ _ => rfl,
        fun _ => isReferenced_of_attached (by simpa using attached), rfl⟩
      have one := sharers_added (p := s.pool) (h := .subpages s.pool.arena.subpages) W.ordered free i
      exact Nat.le_trans (Nat.le_add_right _ _) one.ge

theorem effect_detach (W : s.Wf) : Effect s .detach s.detach := by
  unfold detach
  split
  · rename_i attached
    exact ⟨⟨W.pool, W.ordered, W.solo, W.fits, W.shared⟩, fun m H => H.same fun _ _ _ _ _ _ => rfl, nofun,
      .of_kept W (fun _ _ => Cursors.after_of_no_target rfl) (fun _ _ found => found) (fun _ _ _ => rfl),
      .of_course (Pool.Rests.refl W.pool).course fun _ => rfl, Pool.keepsCeilings_of_cores fun _ _ _ => rfl,
      fun _ => isReferenced_of_attached attached, rfl⟩
  · exact .idle W rfl rfl

/-! ## Steps -/

/-- The effect of every command of the interface. -/
theorem run_yields (W : s.Wf) (command : Command) (isPublic : command.isPublic = true) :
    (s.run command).Yields (Effect s command) := by
  cases command with
  | buffer key capacity => exact makeBuffer_yields W key capacity _ rfl
  | allocate key capacity maxCapacity => exact makeBuffer_yields W key capacity maxCapacity rfl
  | fill key count capacity => exact fill_yields W key count capacity
  | drop key => exact drop_yields W key
  | dropRange key stop step => exact dropRange_yields W key stop step
  | detach => exact Checked.yields_ok.2 (effect_detach W)
  | duplicate key source => exact duplicate_yields W key source
  | slice key source index length => exact slice_yields W key source index length
  | sliceReadable key source => exact sliceReadable_yields W key source
  | setCapacity key capacity => exact setCapacity_yields W key capacity
  | ensureWritable key additional => exact ensureWritable_yields W key additional
  | setIndex key reader writer => exact setIndex_yields W key reader writer
  | write key bytes => exact write_yields W key bytes
  | setBytes key index bytes => exact setBytes_yields W key index bytes
  | read key length => exact read_yields W key length
  | getBytes key index length => exact getBytes_yields W key index length
  | copyReadable key => exact copyReadable_yields W key
  | info key => exact info_yields W key
  | stats => exact stats_yields W
  | freeSubpages capacity => exact freeSubpages_yields W capacity
  | counters => exact Checked.yields_ok.2 (.idle W rfl rfl)
  | subpages => exact subpages_yields W
  | hold key => exact Checked.yields_ok.2 (effect_hold W key)
  | held key => exact held_yields W key
  | coreNew _ => cases isPublic
  | coreReuse _ _ => cases isPublic
  | coreRetain _ => cases isPublic
  | coreRelease _ => cases isPublic
  | coreReclaim _ => cases isPublic
  | coreSetIndex _ _ _ => cases isPublic
  | coreClamp _ _ => cases isPublic
  | coreBind _ _ _ _ _ _ _ _ => cases isPublic
  | coreSetCapacity _ _ => cases isPublic
  | coreGetBytes _ _ _ => cases isPublic
  | coreSetBytes _ _ _ => cases isPublic
  | coreFastCapacity _ => cases isPublic
  | coreMove _ _ => cases isPublic

/-- Counting destroyed chunks changes counters only, and none that counts leases. -/
theorem countDestroyed_eq (p : Pool) (n : Nat) : ∃ counters,
    countDestroyed p n = { p with arena := { p.arena with counters := counters } } ∧
      counters.returned = p.arena.counters.returned := by
  induction n with
  | zero => exact ⟨p.arena.counters, rfl, rfl⟩
  | succ n ih =>
    obtain ⟨counters, e, returned⟩ := ih
    refine ⟨counters.count .chunkDestroyed, ?_, returned⟩
    rw [countDestroyed, e]
    rfl

/-- Settling changes the pool in its counters only, and none that counts leases. -/
theorem settle_eq (s : Session) : ∃ counters closed, s.settle = { s with
    pool := { s.pool with arena := { s.pool.arena with counters := counters } }
    closed := closed } ∧ counters.returned = s.pool.arena.counters.returned := by
  unfold settle
  split
  · exact ⟨s.pool.arena.counters, s.closed, rfl, rfl⟩
  · obtain ⟨counters, e, returned⟩ := countDestroyed_eq s.pool s.pool.arena.chunks.size
    exact ⟨counters, true, by rw [e], returned⟩

theorem Wf.settle (W : s.Wf) : s.settle.Wf := by
  obtain ⟨counters, closed, e, -⟩ := settle_eq s
  rw [e]
  have books : s.pool.arena.SameBooks { s.pool.arena with counters := counters } :=
    ⟨rfl, rfl, rfl, rfl, rfl, rfl, rfl, fun _ => rfl⟩
  exact ⟨W.pool.sameBooks books rfl rfl (fun _ => rfl) rfl, W.ordered, W.solo,
    fun h hh => (W.fits h hh).transfer fun i on => (W.fits h hh).bound on, W.shared⟩

/-- Settling moves no lease. -/
theorem Wf.rests_settle (W : s.Wf) : s.pool.Rests s.settle.pool := by
  have wf := W.settle.pool
  obtain ⟨counters, closed, e, returned⟩ := settle_eq s
  rw [e] at wf ⊢
  exact Pool.rests_of_cores ⟨wf, rfl, rfl, fun S => S⟩ (fun _ => rfl) ⟨⟨rfl, rfl, rfl, rfl⟩, returned⟩ rfl

/-- Settling leaves the cores and the number of exchanges as they are. -/
theorem settle_pool (s : Session) (id : CoreId) :
    s.settle.pool.core id = s.pool.core id ∧ s.settle.pool.moves = s.pool.moves := by
  obtain ⟨counters, closed, e, -⟩ := settle_eq s
  rw [e]
  exact ⟨rfl, rfl⟩

/-- Settling leaves the handles as they are. -/
theorem handles_settle (s : Session) : s.settle.handles = s.handles := by
  obtain ⟨counters, closed, e, -⟩ := settle_eq s
  rw [e]

theorem Advances.settle (h : s.Advances command s') (W : s'.Wf) : s.Advances command s'.settle := by
  cases h with
  | keeps course sharers =>
    refine .keeps (course.rests W.rests_settle) fun id => ?_
    rw [show s'.settle.sharers id = s'.sharers id by rw [Session.sharers, handles_settle, Session.sharers]]
    exact sharers id
  | drops gives turns => exact .drops gives (turns.tail (.inl W.rests_settle))

theorem Moves.settle {answer : Answer} (h : s.Moves command (s', answer)) :
    s.Moves command (s'.settle, answer) := by
  obtain ⟨counters, closed, e, -⟩ := settle_eq s'
  rw [e]
  exact ⟨h.buffer, h.view⟩

/-- Somebody who refers to the arena keeps it. -/
theorem settle_of_referenced (referenced : s.isReferenced = true) : s.settle = s := by
  rw [settle, referenced, Bool.or_true, if_pos rfl]

/-- Whoever referred to the arena before a refused command refers to it afterwards. -/
theorem Unaffected.isReferenced (h : s.Unaffected s') (W : s.Wf) (referenced : s.isReferenced = true) :
    s'.isReferenced = true := by
  apply W.isReferenced_mono h.attached (fun k hk => h.handles ▸ hk) _ referenced
  intro id l lease
  exact ⟨l, (congrArg Core.lease (h.pool.cores id l lease)).trans lease⟩

/-! ## Steps on one handle -/

/-- Who holds a buffer or a view refers to the arena. -/
theorem Wf.isReferenced (W : s.Wf) {h : Handle} {id : CoreId} (found : s.handles.get? key = some h)
    (on : h.core? = some id) : s.isReferenced = true := by
  obtain ⟨l, lease, -⟩ := W.core_of_get? found on
  exact isReferenced_of_bound (Registry.mem_values found) on lease

/-- What a command does to a buffer, the step does. -/
theorem step_onBuffer {work : Buffer → Checked (Pool × Answered Unit)}
    (isWork : s.run command = s.onBuffer key work) {b : Buffer} {answer : Answered Unit}
    (found : s.handles.get? key = some (.buffer b)) (e : work b = .ok (p, answer)) :
    s.step command = .ok ((s.withPool p).settle, .ofUnit answer) := by
  unfold step
  simp only [isWork, onBuffer, found, e, Checked.ok_bind]
  rfl

/-- What a command on a buffer or a view does to a buffer, the step does. -/
theorem step_onEither {ofBuffer : Buffer → Checked (Pool × Answer)}
    {ofView : View → Checked (Pool × View × Answer)}
    (isWork : s.run command = s.onEither key ofBuffer ofView) {b : Buffer} {answer : Answer}
    (found : s.handles.get? key = some (.buffer b)) (e : ofBuffer b = .ok (p, answer)) :
    s.step command = .ok ((s.withPool p).settle, answer) := by
  unfold step
  simp only [isWork, onEither, found, e, Checked.ok_bind]
  rfl

/-- A well-formed session whose chunks are there as long as anybody refers to the arena. -/
structure Sound (s : Session) : Prop where
  wf : s.Wf
  ended : s.closed = true → s.isReferenced = false

/-- What a step does, whatever its answer. -/
structure StepEffect (s : Session) (command : Command) (r : Session × Answer) : Prop where
  sound : r.1.Sound
  holds : ∀ m, s.pool.Holds m → r.1.pool.Holds (m.after s command r)
  refused : ∀ refusal, r.2 = .refused refusal → s.Unaffected r.1
  moves : s.Moves command r
  advances : s.Advances command r.1
  ceilings : s.pool.KeepsCeilings r.1.pool

/-- Settling closes a session that nobody refers to. -/
theorem sound_settle (W : s.Wf) (ended : s.closed = true → s.isReferenced = false) :
    s.settle.Sound := by
  refine ⟨W.settle, fun closed => ?_⟩
  cases referenced : s.isReferenced with
  | true =>
    rw [settle_of_referenced referenced] at closed
    rw [ended closed] at referenced
    cases referenced
  | false =>
    obtain ⟨counters, closed', e, -⟩ := settle_eq s
    rw [e]
    exact referenced

/-- A lease in use keeps the chunks. -/
theorem Sound.open_of_bound (S : s.Sound) {id : CoreId} {l : Lease}
    (lease : (s.pool.core id).lease = some l) : s.closed = false := by
  obtain ⟨-, used⟩ := S.wf.shared id l lease
  obtain ⟨h, mem, uses⟩ := List.countP_pos_iff.1 used
  have referenced := isReferenced_of_bound mem (Handle.uses_iff.1 uses) lease
  cases closed : s.closed with
  | false => rfl
  | true =>
    rw [S.ended closed] at referenced
    cases referenced

/-- The effect of a step. -/
theorem step_yields (S : s.Sound) (command : Command) (isPublic : command.isPublic = true) :
    (s.step command).Yields (StepEffect s command) := by
  apply (run_yields S.wf command isPublic).bind
  intro ⟨s1, answer⟩ effect
  have ended : s1.closed = true → s1.isReferenced = false := fun closed => by
    cases referenced : s1.isReferenced with
    | false => rfl
    | true => exact (effect.referenced referenced).symm.trans (S.ended (effect.closed ▸ closed))
  refine Checked.yields_pure.2 ⟨sound_settle effect.wf ended, fun m H => ?_, fun refusal e => ?_,
    effect.moves.settle, effect.advances.settle effect.wf, fun id l l' lease lease' => ?_⟩
  · obtain ⟨counters, closed, e, -⟩ := settle_eq s1
    have held := effect.holds m H
    rw [e]
    exact held
  · obtain ⟨referenced, same⟩ := effect.refused refusal e
    rw [settle_of_referenced (same.isReferenced S.wf referenced)]
    exact same
  · have core := (settle_pool s1 id).1
    rw [core] at lease' ⊢
    exact effect.ceilings id l l' lease lease'

end Session

end BufferPool
