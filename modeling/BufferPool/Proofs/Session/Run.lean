import BufferPool.Proofs.Session.Step

/-!
# Runs

Whatever a caller does with a new pool, no check fails, neither on the way nor when the handles and the pool
are given up at the end; and a command that is refused leaves the session as it was.
-/

namespace BufferPool

namespace Session

variable {s last : Session} {all : List Session}

/-- Runs commands one after the other. -/
def play (s : Session) : (commands : List Command) → Checked Session
  | [] => .ok s
  | command :: rest => do
    let (s, _) ← s.step command
    s.play rest

/-- No run of the interface breaks the invariant. -/
theorem play_yields (S : s.Sound) (commands : List Command)
    (isPublic : ∀ command ∈ commands, command.isPublic = true) : (s.play commands).Yields Sound := by
  induction commands generalizing s with
  | nil => exact Checked.yields_ok.2 S
  | cons command rest ih =>
    apply (step_yields S command (isPublic _ List.mem_cons_self)).bind
    intro ⟨s1, answer⟩ effect
    exact ih effect.sound fun c hc => isPublic c (List.mem_cons_of_mem _ hc)

/-- Runs commands one after the other, and writes down the answers. -/
def transcript (s : Session) : (commands : List Command) → Checked (Session × List (Command × Answer))
  | [] => .ok (s, [])
  | command :: rest => do
    let (s, answer) ← s.step command
    let (s, entries) ← s.transcript rest
    return (s, (command, answer) :: entries)

/-- A run can be written down. -/
theorem transcript_yields (S : s.Sound) (commands : List Command)
    (isPublic : ∀ command ∈ commands, command.isPublic = true) :
    (s.transcript commands).Yields fun r => r.1.Sound := by
  induction commands generalizing s with
  | nil => exact Checked.yields_ok.2 S
  | cons command rest ih =>
    refine (step_yields S command (isPublic _ List.mem_cons_self)).bind ?_
    intro ⟨s', answer⟩ effect
    refine (ih effect.sound fun c hc => isPublic c (List.mem_cons_of_mem _ hc)).bind ?_
    intro r sound
    exact Checked.yields_pure.2 sound

/-- The sessions that commands lead through, from the first to the last. -/
def stages (s : Session) : (commands : List Command) → Checked (List Session)
  | [] => .ok [s]
  | command :: rest => do
    let (s', _) ← s.step command
    return s :: (← s'.stages rest)

/-- A row of sessions, each after the one before it. -/
inductive Trail : Session → List Session → Session → Prop where
  | done {s : Session} (sound : s.Sound) : Trail s [s] s
  | step {s s' last : Session} {all : List Session} (sound : s.Sound) (course : s.pool.Course s'.pool)
      (rest : Trail s' all last) : Trail s (s :: all) last

/-- A run leads from each session to the next one, and to the one that it ends with. -/
theorem stages_yields (S : s.Sound) (commands : List Command)
    (isPublic : ∀ command ∈ commands, command.isPublic = true) :
    (s.stages commands).Yields fun all => ∃ last, s.play commands = .ok last ∧ s.Trail all last := by
  induction commands generalizing s with
  | nil => exact Checked.yields_ok.2 ⟨s, rfl, .done S⟩
  | cons command rest ih =>
    obtain ⟨⟨s1, answer⟩, e, effect⟩ := step_yields S command (isPublic _ List.mem_cons_self)
    refine .bind_ok e ((ih effect.sound fun c hc => isPublic c (List.mem_cons_of_mem _ hc)).bind ?_)
    intro all ⟨last, played, trail⟩
    refine Checked.yields_pure.2 ⟨last, ?_, .step S effect.advances.course trail⟩
    rw [play, e]
    exact played

/-- What every turn of the leases keeps, a row of sessions keeps. -/
theorem Trail.invariant {P : Pool → Prop} (t : s.Trail all last)
    (step : ∀ {p p' : Pool}, p.Wf → p.Turn p' → P p → P p') (h : P s.pool) : last.Sound ∧ P last.pool := by
  induction t with
  | done sound => exact ⟨sound, h⟩
  | step sound course _ ih => exact ih (course.invariant sound.wf.pool step h)

/-- What every turn of the leases keeps holds of all sessions of a row. -/
theorem Trail.forall_mem {P : Pool → Prop} (t : s.Trail all last)
    (step : ∀ {p p' : Pool}, p.Wf → p.Turn p' → P p → P p') (h : P s.pool) :
    ∀ x ∈ all, x.Sound ∧ P x.pool := by
  induction t with
  | done sound =>
    intro x mem
    rw [List.mem_singleton.1 mem]
    exact ⟨sound, h⟩
  | step sound course _ ih =>
    exact List.forall_mem_cons.2 ⟨⟨sound, h⟩, ih (course.invariant sound.wf.pool step h)⟩

theorem Trail.head (t : s.Trail all last) : ∃ rest, all = s :: rest := by
  cases t <;> exact ⟨_, rfl⟩

/-- What ties a pool to the one after a request ties each session of a row to all later ones. -/
theorem Trail.pairwise {R : Pool → Pool → Prop} (t : s.Trail all last)
    (trans : ∀ {p q r : Pool}, R p q → R q r → R p r)
    (course : ∀ {p p' : Pool}, p.Wf → p.Course p' → R p p') : all.Pairwise fun x y => R x.pool y.pool := by
  induction t with
  | done _ => exact List.pairwise_singleton ..
  | @step s s' last all sound turns rest ih =>
    obtain ⟨others, rfl⟩ := rest.head
    have first := course sound.wf.pool turns
    refine List.pairwise_cons.2 ⟨List.forall_mem_cons.2 ⟨first, fun y mem => ?_⟩, ih⟩
    exact trans first ((List.pairwise_cons.1 ih).1 y mem)

/-- What every turn of the leases keeps, a run keeps. -/
theorem play_invariant {P : Pool → Prop} (S : s.Sound) (commands : List Command)
    (isPublic : ∀ command ∈ commands, command.isPublic = true)
    (step : ∀ {p p' : Pool}, p.Wf → p.Turn p' → P p → P p') (h : P s.pool) :
    (s.play commands).Yields fun s' => s'.Sound ∧ P s'.pool := by
  obtain ⟨all, -, last, played, trail⟩ := stages_yields S commands isPublic
  exact ⟨last, played, trail.invariant step h⟩

/-- A pool is created from a configuration that breaks no rule. -/
theorem eq_ofConfig {config : PoolConfig} {supply : Supply} {pool : Pool}
    (created : Pool.createOn supply config = .ok pool) :
    config.validate = .ok () ∧ pool = .ofConfig config supply := by
  unfold Pool.createOn at created
  cases valid : config.validate with
  | error fault =>
    rw [valid] at created
    cases created
  | ok =>
    rw [valid] at created
    cases created
    exact ⟨rfl, rfl⟩

/-- A new pool has a sound session. -/
theorem sound_ofPool {config : PoolConfig} {supply : Supply} {pool : Pool}
    (created : Pool.createOn supply config = .ok pool)
    (lossless : config.pageSize * 2 ^ config.maxOrder < Word.bound) : (ofPool pool).Sound := by
  obtain ⟨valid, rfl⟩ := eq_ofConfig created
  have W := Pool.wf_ofConfig ⟨valid, lossless⟩ supply
  refine ⟨⟨W, Registry.ordered_empty, .empty, nofun, fun id l lease => ?_⟩, nofun⟩
  obtain ⟨b, hb⟩ : ∃ b, id < b ∧ b ≤ 0 := ⟨_, Pool.lt_size_of_bound lease, Nat.le_refl _⟩
  exact absurd hb.1 (Nat.not_lt.2 (Nat.le_trans hb.2 (Nat.zero_le _)))

/-- The present state of a handle can be shown. -/
theorem Wf.shown?_ok (W : s.Wf) (key : Nat) : ∃ shown, s.shown? key = .ok shown := by
  unfold shown?
  cases found : s.handles.get? key with
  | none => exact ⟨none, rfl⟩
  | some h =>
    cases h with
    | buffer b =>
      obtain ⟨l, lease, -⟩ := W.core_of_get? found rfl
      have bound := Core.bound_ok lease
      simp only [showHandle, Buffer.fastCapacity, Buffer.locator?, bound, Checked.ok_bind]
      exact ⟨_, rfl⟩
    | view v => exact ⟨_, rfl⟩
    | core id => exact ⟨_, rfl⟩
    | subpages ids => exact ⟨_, rfl⟩

/-- The figures of the pool can be shown. -/
theorem Wf.stats?_ok (W : s.Wf) : ∃ stats, s.stats? = .ok stats := by
  obtain ⟨stats, e, -⟩ := W.pool.stats_ok
  unfold stats?
  rw [e]
  split
  · exact ⟨_, rfl⟩
  · exact ⟨_, rfl⟩

/-- The session can be ended. -/
theorem Wf.finish_ok (W : s.Wf) : ∃ ending, s.finish = .ok ending := by
  have done : s.finish.Yields fun _ => True := by
    apply (dropAll_yields W s.handles.keys).bind
    intro ⟨s1, count⟩ spares
    obtain ⟨stats, e⟩ := spares.wf.stats?_ok
    simp only [e, Checked.ok_bind]
    exact Checked.yields_pure.2 trivial
  obtain ⟨ending, e, -⟩ := done
  exact ⟨ending, e⟩

section

variable {config : PoolConfig} {supply : Supply} {pool : Pool} {commands : List Command}

/-- No run of the interface fails a check, and its end does not either. -/
theorem play_never_fails (created : Pool.createOn supply config = .ok pool)
    (lossless : config.pageSize * 2 ^ config.maxOrder < Word.bound)
    (isPublic : ∀ command ∈ commands, command.isPublic = true) :
    ∃ s, (ofPool pool).play commands = .ok s ∧ (∀ key, ∃ shown, s.shown? key = .ok shown) ∧
      (∃ stats, s.stats? = .ok stats) ∧ ∃ ending, s.finish = .ok ending := by
  obtain ⟨s, e, sound⟩ := play_yields (sound_ofPool created lossless) commands isPublic
  exact ⟨s, e, sound.wf.shown?_ok, sound.wf.stats?_ok, sound.wf.finish_ok⟩

/-- The default configuration, and a few commands. -/
theorem play_never_fails_default :
    ∃ s, (ofPool (.ofConfig {} .full)).play [.buffer 0 100, .duplicate 1 0, .drop 0, .write 1 ⟨#[7]⟩] =
      .ok s ∧ (∀ key, ∃ shown, s.shown? key = .ok shown) ∧ (∃ stats, s.stats? = .ok stats) ∧
        ∃ ending, s.finish = .ok ending :=
  play_never_fails (show Pool.createOn .full {} = .ok (.ofConfig {} .full) from rfl) (by decide)
    (by decide)

/-- A refused command, at the end of any run, leaves every buffer and view and the books of the arena as they
were. -/
theorem refused_step_unaffected (created : Pool.createOn supply config = .ok pool)
    (lossless : config.pageSize * 2 ^ config.maxOrder < Word.bound)
    (isPublic : ∀ command ∈ commands, command.isPublic = true) :
    ((ofPool pool).play commands).Yields fun s =>
      ∀ command : Command, command.isPublic = true → (s.step command).Yields fun r =>
        ∀ refusal, r.2 = .refused refusal → s.Unaffected r.1 ∧
          ∀ id k, r.1.pool.byte? id k = s.pool.byte? id k := by
  apply (play_yields (sound_ofPool created lossless) commands isPublic).mono
  intro s sound command isPublic
  apply (step_yields sound command isPublic).mono
  intro r effect refusal e
  have same := effect.refused refusal e
  exact ⟨same, same.pool.byte?⟩

/-- A pool that has no more than one page. -/
def onePage : PoolConfig := { pageSize := 4096, maxOrder := 0, maxChunks := 1 }

/-- A buffer on the only page, written to and under a view, cannot move to a page of its own. -/
theorem refused_setCapacity_unaffected : ∃ s r,
    (ofPool (.ofConfig onePage .full)).play [.buffer 0 100, .write 0 ⟨#[1, 2, 3]⟩, .duplicate 1 0] = .ok s ∧
      s.step (.setCapacity 0 4096) = .ok r ∧ r.2 = .refused (.exhausted 1 4096) ∧
      s.pool.byte? 0 2 = some 3 ∧ s.Unaffected r.1 ∧ ∀ id k, r.1.pool.byte? id k = s.pool.byte? id k := by
  obtain ⟨s, played, unaffected⟩ := refused_step_unaffected
    (show Pool.createOn .full onePage = .ok (.ofConfig onePage .full) from rfl) (by decide)
    (show ∀ command ∈ [.buffer 0 100, .write 0 ⟨#[1, 2, 3]⟩, .duplicate 1 0],
      Command.isPublic command = true by decide)
  have seen : ((ofPool (.ofConfig onePage .full)).play
      [.buffer 0 100, .write 0 ⟨#[1, 2, 3]⟩, .duplicate 1 0]).toOption.map (fun s =>
        (s.pool.byte? 0 2, (s.step (.setCapacity 0 4096)).toOption.map fun r => r.2.refusal?)) =
      some (some 3, some (some (.exhausted 1 4096))) := by
    decide +kernel
  have now := Checked.eq_of_seen seen played
  rw [Prod.mk.injEq] at now
  obtain ⟨written, told⟩ := now
  obtain ⟨r, step, same⟩ := unaffected (.setCapacity 0 4096) rfl
  have refusal := Checked.eq_of_seen told step
  have answer := Answer.refusal?_eq_some.1 refusal
  exact ⟨s, r, played, step, answer, written, same _ answer⟩

end

end Session

end BufferPool
