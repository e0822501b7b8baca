import BufferPool.Proofs.Session.Contents

/-!
# The effect of a command

Every command of the interface has the same kind of effect (`Session.Effect`): no check fails, the session
stays well formed, its buffers read as what is known of them, its handles keep their cursors but for the one
that the command works on (`Session.Moves`), and a refusal leaves everything as it was.
A command on one handle gets its effect from that of the operation on its buffer or view.
-/

namespace BufferPool

namespace Session

variable {s s' : Session} {p : Pool} {id : CoreId} {key : Nat} {h : Handle} {command : Command}

/-- A refused command: the handles stay, and of the pool only the counts of attempts and the idle cores may
differ. -/
structure Unaffected (s s' : Session) : Prop where
  pool : s.pool.Unaffected s'.pool
  handles : s'.handles = s.handles
  attached : s'.attached = s.attached
  closed : s'.closed = s.closed

/-- Whether a command gives handles up. -/
def Command.givesUp : Command → Bool
  | .drop _ | .dropRange .. => true
  | _ => false

/-- How a command gets on with the leases and the handles on them. -/
inductive Advances (s : Session) (command : Command) (s' : Session) : Prop where
  /-- Every handle stays. -/
  | keeps (course : s.pool.Course s'.pool) (sharers : ∀ id, s.sharers id ≤ s'.sharers id)
  /-- Handles are given up. -/
  | drops (gives : command.givesUp = true) (turns : s.pool.Drains s'.pool)

theorem Advances.course (h : s.Advances command s') : s.pool.Course s'.pool := by
  cases h with
  | keeps course _ => exact course
  | drops _ turns => exact .drains turns

/-- A command that leaves the handles on the cores as they are. -/
theorem Advances.of_course (course : s.pool.Course s'.pool) (same : ∀ id, s'.sharers id = s.sharers id) :
    s.Advances command s' :=
  .keeps course fun id => (same id).ge

/-- A handle stays what it is, unless the command gives handles up. Its cursors move as the command and the
answer say. -/
structure Moves (s : Session) (command : Command) (r : Session × Answer) : Prop where
  buffer : ∀ key b, s.handles.get? key = some (.buffer b) →
    command.givesUp = true ∧ r.1.handles.get? key = none ∨
      r.1.handles.get? key = some (.buffer b) ∧
        (r.1.pool.core b.core).cursors = (s.pool.core b.core).cursors.after command key r.2
  view : ∀ key v, s.handles.get? key = some (.view v) →
    command.givesUp = true ∧ r.1.handles.get? key = none ∨
      r.1.handles.get? key = some (.view (v.withCursors (v.cursors.after command key r.2)))

/-- The cursors of buffers in use stay, and so do all handles. -/
theorem Moves.of_kept (W : s.Wf) {answer : Answer}
    (still : ∀ (c : Cursors) key, c.after command key answer = c)
    (handles : ∀ key h, s.handles.get? key = some h → s'.handles.get? key = some h)
    (cores : ∀ id l, (s.pool.core id).lease = some l →
      (s'.pool.core id).cursors = (s.pool.core id).cursors) :
    s.Moves command (s', answer) where
  buffer key b found := by
    obtain ⟨l, lease, -⟩ := W.core_of_get? found rfl
    rw [still]
    exact .inr ⟨handles key _ found, cores _ l lease⟩
  view key v found := by
    rw [still]
    exact .inr (handles key _ found)

/-- A command on a buffer moves the cursors of the buffer. -/
theorem Moves.of_buffer (W : s.Wf) (target : command.target? = some key) {b : Buffer}
    (found : s.handles.get? key = some (.buffer b)) (frame : s.pool.Frame b.core p) {answer : Answer}
    (own : (p.core b.core).cursors = (s.pool.core b.core).cursors.moved command answer) :
    s.Moves command (s.withPool p, answer) where
  buffer key' b' found' := by
    refine .inr ⟨found', ?_⟩
    by_cases here : key' = key
    · subst here
      cases found.symm.trans found'
      rw [Cursors.after_of_target target]
      exact own
    · have other : b'.core ≠ b.core := fun same => here
        (W.solo key' key b' found' (by rw [found, show b = b' from congrArg Buffer.mk same.symm]))
      rw [Cursors.after_of_ne target here]
      exact congrArg Core.cursors (frame.cores _ other)
  view key' v found' := by
    have ne : key' ≠ key := by
      rintro rfl
      cases found.symm.trans found'
    rw [Cursors.after_of_ne target ne]
    exact .inr found'

/-- A command on a view moves the cursors of the view. -/
theorem Moves.of_view (target : command.target? = some key) {v : View}
    (found : s.handles.get? key = some (.view v)) (frame : s.pool.Frame v.core p) {answer : Answer}
    (core : (p.core v.core).cursors = (s.pool.core v.core).cursors) : s.Moves command
      ((s.withPool p).withHandle key (.view (v.withCursors (v.cursors.moved command answer))), answer) where
  buffer key' b found' := by
    have ne : key' ≠ key := by
      rintro rfl
      cases found.symm.trans found'
    rw [Cursors.after_of_ne target ne]
    refine .inr ⟨(Registry.get?_insert_ne ne).trans found', ?_⟩
    by_cases same : b.core = v.core
    · rw [same]
      exact core
    · exact congrArg Core.cursors (frame.cores _ same)
  view key' v' found' := by
    by_cases here : key' = key
    · subst here
      cases found.symm.trans found'
      rw [Cursors.after_of_target target]
      exact .inr Registry.get?_insert_self
    · rw [Cursors.after_of_ne target here]
      exact .inr ((Registry.get?_insert_ne here).trans found')

/-- What a command does, whatever its answer. Nobody comes to refer to the arena who did not before. -/
structure Effect (s : Session) (command : Command) (r : Session × Answer) : Prop where
  wf : r.1.Wf
  holds : ∀ m, s.pool.Holds m → r.1.pool.Holds (m.after s command r)
  refused : ∀ refusal, r.2 = .refused refusal → s.isReferenced = true ∧ s.Unaffected r.1
  moves : s.Moves command r
  advances : s.Advances command r.1
  ceilings : s.pool.KeepsCeilings r.1.pool
  referenced : r.1.isReferenced = true → s.isReferenced = true
  closed : r.1.closed = s.closed

/-- The answer grants something, or finds nothing to work on, but refuses nothing. -/
def Answer.isRefusal : Answer → Bool
  | .refused _ => true
  | _ => false

/-- Why a command was refused. -/
def Answer.refusal? : Answer → Option Refusal
  | .refused refusal => some refusal
  | _ => none

theorem Answer.refusal?_eq_some {answer : Answer} {refusal : Refusal} :
    answer.refusal? = some refusal ↔ answer = .refused refusal := by
  cases answer <;> simp [refusal?]

theorem Answer.ne_refused {answer : Answer} (plain : answer.isRefusal = false) (refusal : Refusal) :
    answer ≠ .refused refusal := by
  intro e
  rw [e] at plain
  cases plain

theorem Answer.ne_done {answer : Answer} (other : answer.isGrant = false) : answer ≠ .done := by
  rintro rfl
  cases other

theorem isReferenced_of_mem (mem : h ∈ s.handles.values) (refers : refersToArena s.pool h = true) :
    s.isReferenced = true := by
  have any : s.handles.values.any (refersToArena s.pool) = true := List.any_eq_true.2 ⟨h, mem, refers⟩
  simp [isReferenced, any]

/-- A handle refers to the arena as long as its core has a lease. -/
theorem refersToArena_mono {p' : Pool} (refers : refersToArena p h = true)
    (bound : ∀ id, h.core? = some id → (p'.core id).isBound = true) : refersToArena p' h = true := by
  cases h with
  | buffer b => exact bound b.core rfl
  | view v => exact bound v.core rfl
  | core id => exact bound id rfl
  | subpages ids => exact refers

theorem isReferenced_of_bound (mem : h ∈ s.handles.values) (on : h.core? = some id) {l : Lease}
    (lease : (s.pool.core id).lease = some l) : s.isReferenced = true := by
  have bound := Core.isBound_of_lease lease
  apply isReferenced_of_mem mem
  cases h with
  | buffer b => cases on; exact bound
  | view v => cases on; exact bound
  | core _ => cases on; exact bound
  | subpages _ => cases on

theorem isReferenced_of_attached (attached : s.attached = true) : s.isReferenced = true := by
  simp [isReferenced, attached]

/-- Who refers to the arena goes on doing so, as long as the handles stay and their cores keep a lease. -/
theorem Wf.isReferenced_mono (W : s.Wf) (attached : s'.attached = s.attached)
    (handles : ∀ h ∈ s.handles.values, h ∈ s'.handles.values)
    (bound : ∀ id l, (s.pool.core id).lease = some l → ∃ l', (s'.pool.core id).lease = some l')
    (referenced : s.isReferenced = true) : s'.isReferenced = true := by
  unfold isReferenced at referenced
  simp only [Bool.or_eq_true] at referenced
  rcases referenced with (holds | handle) | idle
  · exact isReferenced_of_attached (attached.trans holds)
  · obtain ⟨k, hk, refers⟩ := List.any_eq_true.1 handle
    apply isReferenced_of_mem (handles k hk)
    apply refersToArena_mono refers
    intro id on
    obtain ⟨l, lease⟩ := (W.fits k hk).bound on
    obtain ⟨l', lease'⟩ := bound id l lease
    exact Core.isBound_of_lease lease'
  · obtain ⟨id, waits, busy⟩ := List.any_eq_true.1 idle
    rw [Core.isBound, (W.pool.idle id waits).2] at busy
    cases busy

/-- A command that finds nothing to work on. -/
theorem Effect.idle (W : s.Wf) {answer : Answer} (plain : answer.isRefusal = false)
    (other : answer.isGrant = false) : Effect s command (s, answer) where
  wf := W
  holds m H := by
    rw [Known.after_of_ne_done (Answer.ne_done other)]
    exact H.same fun _ _ _ _ _ _ => rfl
  refused refusal e := absurd e (Answer.ne_refused plain refusal)
  moves := .of_kept W (fun _ _ => Cursors.after_of_not_grant other) (fun _ _ found => found) fun _ _ _ => rfl
  advances := .of_course (Pool.Rests.refl W.pool).course fun _ => rfl
  ceilings := Pool.keepsCeilings_of_cores fun _ _ _ => rfl
  referenced h := h
  closed := rfl

/-- A command that is refused by an operation on the pool. -/
theorem Effect.refuse (W : s.Wf) (referenced : s.isReferenced = true) (same : s.pool.Declines p)
    (refusal : Refusal) : Effect s command (s.withPool p, .refused refusal) where
  wf := W.unaffected same.toUnaffected
  holds m H := by
    rw [Known.after_of_ne_done (by nofun)]
    exact H.unaffected same.toUnaffected
  refused _ _ := ⟨referenced, same.toUnaffected, rfl, rfl, rfl⟩
  moves := .of_kept W (fun _ _ => Cursors.after_of_not_grant rfl) (fun _ _ found => found) fun id l lease =>
    congrArg Core.cursors (same.cores id l lease)
  advances := .of_course same.rests.course fun _ => rfl
  ceilings := Pool.keepsCeilings_of_cores same.cores
  referenced _ := referenced
  closed := rfl

/-- A command that works on a core by its buffer. -/
theorem Effect.work (W : s.Wf) (target : command.target? = some key) {b : Buffer}
    (found : s.handles.get? key = some (.buffer b)) (u : s.pool.Uses b.core p) {answer : Answer}
    (plain : answer.isRefusal = false)
    (own : (p.core b.core).cursors = (s.pool.core b.core).cursors.moved command answer)
    (holds : ∀ m, s.pool.Holds m → p.Holds (m.after s command (s.withPool p, answer))) :
    Effect s command (s.withPool p, answer) where
  wf := W.uses found rfl u
  holds := holds
  refused refusal e := absurd e (Answer.ne_refused plain refusal)
  moves := .of_buffer W target found u.frame own
  advances := .of_course u.course fun _ => rfl
  ceilings := u.keepsCeilings
  referenced _ := by
    obtain ⟨l, lease, -⟩ := W.core_of_get? found rfl
    exact isReferenced_of_bound (Registry.mem_values found) rfl lease
  closed := rfl

/-- A command that works on a core by a view and moves the cursors of the view. -/
theorem Effect.workView (W : s.Wf) (target : command.target? = some key) {v w : View}
    (found : s.handles.get? key = some (.view v)) {answer : Answer} (plain : answer.isRefusal = false)
    (moved : w = v.withCursors (v.cursors.moved command answer)) (F : w.Fits) (u : s.pool.Uses v.core p)
    (core : (p.core v.core).cursors = (s.pool.core v.core).cursors)
    (holds : ∀ m, s.pool.Holds m →
      p.Holds (m.after s command ((s.withPool p).withHandle key (.view w), answer))) :
    Effect s command ((s.withPool p).withHandle key (.view w), answer) where
  wf := W.replaced found (by rw [moved]; rfl) F u
  holds := holds
  refused refusal e := absurd e (Answer.ne_refused plain refusal)
  moves := moved ▸ .of_view target found u.frame core
  advances := .of_course u.course (sharers_replaced W.ordered found (by rw [moved]; rfl))
  ceilings := u.keepsCeilings
  referenced _ := by
    obtain ⟨l, lease, -⟩ := W.core_of_get? found rfl
    exact isReferenced_of_bound (Registry.mem_values found) rfl lease
  closed := rfl

/-- What an operation on a buffer has to do for a command on it. -/
def BufferWorks (s : Session) (command : Command) (b : Buffer) (r : Pool × Answer) : Prop :=
  (∃ refusal, r.2 = .refused refusal ∧ s.pool.Declines r.1) ∨
  r.2.isRefusal = false ∧ s.pool.Uses b.core r.1 ∧
    (r.1.core b.core).cursors = (s.pool.core b.core).cursors.moved command r.2 ∧
    ∀ m, s.pool.Holds m → r.1.Holds (m.after s command (s.withPool r.1, r.2))

/-- What an operation on a view has to do for a command on it. -/
def ViewWorks (s : Session) (command : Command) (key : Nat) (v : View) (r : Pool × View × Answer) :
    Prop :=
  (∃ refusal, r = (s.pool, v, .refused refusal)) ∨
  r.2.2.isRefusal = false ∧ r.2.1 = v.withCursors (v.cursors.moved command r.2.2) ∧ r.2.1.Fits ∧
    s.pool.Uses v.core r.1 ∧ (r.1.core v.core).cursors = (s.pool.core v.core).cursors ∧
    ∀ m, s.pool.Holds m →
      r.1.Holds (m.after s command ((s.withPool r.1).withHandle key (.view r.2.1), r.2.2))

theorem BufferWorks.effect (W : s.Wf) (target : command.target? = some key) {b : Buffer}
    (found : s.handles.get? key = some (.buffer b)) {r : Pool × Answer} (works : BufferWorks s command b r) :
    Effect s command (s.withPool r.1, r.2) := by
  obtain ⟨p, answer⟩ := r
  rcases works with ⟨refusal, rfl, same⟩ | ⟨plain, uses, own, holds⟩
  · obtain ⟨l, lease, -⟩ := W.core_of_get? found rfl
    exact .refuse W (isReferenced_of_bound (Registry.mem_values found) rfl lease) same refusal
  · exact .work W target found uses plain own holds

theorem ViewWorks.effect (W : s.Wf) (target : command.target? = some key) {v : View}
    (found : s.handles.get? key = some (.view v)) {r : Pool × View × Answer}
    (works : ViewWorks s command key v r) :
    Effect s command ((s.withPool r.1).withHandle key (.view r.2.1), r.2.2) := by
  obtain ⟨p, w, answer⟩ := r
  rcases works with ⟨refusal, e⟩ | ⟨plain, moved, F, uses, core, holds⟩
  · cases e
    obtain ⟨l, lease, -⟩ := W.core_of_get? found rfl
    -- The view is put back as it was found.
    have back : (s.withPool s.pool).withHandle key (.view v) = s.withPool s.pool := by
      have same := Registry.insert_same W.ordered found
      simp only [withHandle, withPool, same]
    rw [back]
    exact .refuse W (isReferenced_of_bound (Registry.mem_values found) rfl lease) (.refl W.pool) refusal
  · exact .workView W target found plain moved F uses core holds

/-- The effect of a command on a buffer or a view. -/
theorem onEither_yields (W : s.Wf) (target : command.target? = some key)
    {onBuffer : Buffer → Checked (Pool × Answer)} {onView : View → Checked (Pool × View × Answer)}
    (buffer : ∀ b l, s.handles.get? key = some (.buffer b) → (s.pool.core b.core).lease = some l →
      (onBuffer b).Yields (BufferWorks s command b))
    (view : ∀ v l, s.handles.get? key = some (.view v) → v.Fits →
      (s.pool.core v.core).lease = some l → (onView v).Yields (ViewWorks s command key v)) :
    (s.onEither key onBuffer onView).Yields (Effect s command) := by
  unfold onEither
  cases found : s.handles.get? key with
  | none => exact Checked.yields_pure.2 (.idle W rfl rfl)
  | some handle =>
    cases handle with
    | buffer b =>
      obtain ⟨l, lease, -⟩ := W.core_of_get? found rfl
      apply (buffer b l found lease).bind
      intro r works
      exact Checked.yields_pure.2 (works.effect W target found)
    | view v =>
      obtain ⟨l, lease, -⟩ := W.core_of_get? found rfl
      have fits : v.Fits := (W.fits _ (Registry.mem_values found)).2
      apply (view v l found fits lease).bind
      intro r works
      exact Checked.yields_pure.2 (works.effect W target found)
    | core _ => exact Checked.yields_pure.2 (.idle W rfl rfl)
    | subpages _ => exact Checked.yields_pure.2 (.idle W rfl rfl)

/-- The effect of a command on a buffer. -/
theorem onBuffer_yields (W : s.Wf) (target : command.target? = some key)
    {run : Buffer → Checked (Pool × Answered Unit)}
    (each : ∀ b l, s.handles.get? key = some (.buffer b) → (s.pool.core b.core).lease = some l →
      (run b).Yields fun r => BufferWorks s command b (r.1, .ofUnit r.2)) :
    (s.onBuffer key run).Yields (Effect s command) := by
  unfold onBuffer
  cases found : s.handles.get? key with
  | none => exact Checked.yields_pure.2 (.idle W rfl rfl)
  | some handle =>
    cases handle with
    | buffer b =>
      obtain ⟨l, lease, -⟩ := W.core_of_get? found rfl
      apply (each b l found lease).bind
      intro r works
      exact Checked.yields_pure.2 (works.effect W target found)
    | view _ => exact Checked.yields_pure.2 (.idle W rfl rfl)
    | core _ => exact Checked.yields_pure.2 (.idle W rfl rfl)
    | subpages _ => exact Checked.yields_pure.2 (.idle W rfl rfl)

end Session

end BufferPool
