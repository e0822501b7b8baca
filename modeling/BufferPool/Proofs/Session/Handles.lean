import BufferPool.Proofs.Session.Effect

/-!
# Handles made and given up

The effect of the commands that make buffers and views and of those that give handles up. Several handles
are made or given up one after the other; what carries the induction is that the buffers which stay in use
read as before.
-/

namespace BufferPool

namespace Session

variable {s s' : Session} {p : Pool} {key : Nat} {command : Command}

theorem get?_of_contains (free : ¬ s.handles.contains key = true) : s.handles.get? key = none :=
  Option.not_isSome_iff_eq_none.1 free

/-! ## Buffers -/

/-- A new buffer under a free number. -/
theorem wf_newBuffer (W : s.Wf) (free : s.handles.get? key = none) {id : CoreId} {l : Lease}
    (gains : s.pool.Gains id l p) (frame : s.pool.Frame id p) {maxCapacity : Nat}
    (core : p.core id = ⟨some l, 0, 0, maxCapacity, 1⟩) :
    ((s.withPool p).withHandle key (.buffer ⟨id⟩)).Wf :=
  W.added free rfl (fun _ _ => gains.free) frame ⟨l, by rw [core]⟩
    (by rw [core, W.sharers_free gains.free])

theorem makeBuffer_yields (W : s.Wf) (key capacity maxCapacity : Nat) (aside : command.target? = none) :
    (s.makeBuffer key capacity maxCapacity).Yields (Effect s command) := by
  unfold makeBuffer
  split
  · exact Checked.yields_pure.2 (.idle W rfl rfl)
  · rename_i free
    split
    · exact Checked.yields_pure.2 (.idle W rfl rfl)
    · rename_i attached
      have referenced := isReferenced_of_attached (s := s) (by simpa using attached)
      apply (Pool.allocate_yields W.pool capacity maxCapacity).bind
      intro ⟨p, answer⟩ outcome
      rcases outcome with ⟨refusal, rfl, same⟩ | ⟨id, l, rfl, gains, frame, core, -⟩
      · exact Checked.yields_pure.2 (.refuse W referenced same refusal)
      · have unused := get?_of_contains free
        have others : ∀ i k, (s.pool.core i).lease = some k → i ≠ id := by
          rintro i k lease rfl
          rw [gains.free] at lease
          cases lease
        refine Checked.yields_pure.2 ⟨wf_newBuffer W unused gains frame core, fun m H => ?_, nofun,
          .of_kept W (fun _ _ => Cursors.after_of_no_target aside) (fun j h found => ?_) fun i k lease => ?_,
          .keeps gains.course fun i => ?_,
          Pool.keepsCeilings_of_cores fun i k lease => frame.cores i (others i k lease),
          fun _ => referenced, rfl⟩
        · rw [Known.after_of_no_target aside]
          exact H.frame frame fun k _ lease => absurd rfl (others id k lease)
        · exact Registry.get?_insert_of_free unused found
        · exact congrArg Core.cursors (frame.cores i (others i k lease))
        · rw [sharers_added W.ordered unused]
          exact Nat.le_add_right _ _

/-- Buffers were made one after the other: those in use before keep their cores and read as before. -/
structure Adds (s s' : Session) : Prop where
  wf : s'.Wf
  kept : ∀ i l, (s.pool.core i).lease = some l → s'.pool.core i = s.pool.core i ∧
    ∀ k, s'.pool.byte? i k = s.pool.byte? i k
  handles : ∀ key h, s.handles.get? key = some h → s'.handles.get? key = some h
  turns : s.pool.Fills s'.pool
  sharers : ∀ id, s.sharers id ≤ s'.sharers id
  closed : s'.closed = s.closed

/-- One buffer is made before the others. -/
theorem Adds.after (W : s.Wf) (free : s.handles.get? key = none) {id : CoreId} {l : Lease}
    (gains : s.pool.Gains id l p) (frame : s.pool.Frame id p)
    (h : ((s.withPool p).withHandle key (.buffer ⟨id⟩)).Adds s') : s.Adds s' where
  wf := h.wf
  kept i k lease := by
    have ne : i ≠ id := by
      intro equal
      subst equal
      rw [gains.free] at lease
      cases lease
    obtain ⟨core, bytes⟩ := h.kept i k ((congrArg Core.lease (frame.cores i ne)).trans lease)
    exact ⟨core.trans (frame.cores i ne), fun j => (bytes j).trans (frame.bytes i ne j)⟩
  handles j k found := h.handles j k (Registry.get?_insert_of_free free found)
  turns := .head (.inr ⟨id, l, gains⟩) h.turns
  sharers i := by
    refine Nat.le_trans ?_ (h.sharers i)
    rw [sharers_added W.ordered free]
    exact Nat.le_add_right _ _
  closed := h.closed

theorem makeBuffers_yields (W : s.Wf) (capacity : Nat) : ∀ (count key : Nat),
    (∀ j, key ≤ j → j < key + count → s.handles.get? j = none) →
      (s.makeBuffers key capacity count).Yields fun r => s.Adds r.1 := by
  intro count
  induction count generalizing s with
  | zero =>
    exact fun key _ => Checked.yields_ok.2
      ⟨W, fun _ _ _ => ⟨rfl, fun _ => rfl⟩, fun _ _ found => found, .refl, fun _ => Nat.le_refl _, rfl⟩
  | succ n ih =>
    intro key free
    unfold makeBuffers Pool.allocateDefault
    apply (Pool.allocate_yields W.pool capacity _).bind
    intro r outcome
    obtain ⟨p, answer⟩ := r
    rcases outcome with ⟨refusal, rfl, same⟩ | ⟨id, l, rfl, gains, frame, core, -⟩
    · exact Checked.yields_pure.2 ⟨W.unaffected same.toUnaffected,
        fun i l lease => ⟨same.cores i l lease, same.byte? i⟩, fun _ _ found => found,
        .single (.inl same.rests), fun _ => Nat.le_refl _, rfl⟩
    · have named : Buffer.locator? ⟨id⟩ p = .ok l.locator? := by
        rw [Buffer.locator?, Core.bound_ok (by rw [core])]
        rfl
      have unused := free key (Nat.le_refl _) (by omega)
      have next := ih (wf_newBuffer W unused gains frame core) (key + 1)
        fun j low high => by
          rw [withHandle, Registry.get?_insert_ne (Nat.ne_of_gt low)]
          exact free j (by omega) (by omega)
      simp only [named, Checked.ok_bind]
      apply next.bind
      rintro ⟨s1, locators, stopped⟩ adds
      exact Checked.yields_pure.2 (.after W unused gains frame adds)

theorem fill_yields (W : s.Wf) (key count capacity : Nat) :
    (s.run (.fill key count capacity)).Yields (Effect s (.fill key count capacity)) := by
  change (s.fill key count capacity).Yields _
  unfold fill
  split
  · exact Checked.yields_pure.2 (.idle W rfl rfl)
  · rename_i free
    split
    · exact Checked.yields_pure.2 (.idle W rfl rfl)
    · rename_i attached
      have referenced := isReferenced_of_attached (s := s) (by simpa using attached)
      have unused : ∀ j, key ≤ j → j < key + count → s.handles.get? j = none := by
        intro j low high
        cases found : s.handles.get? j with
        | none => rfl
        | some h =>
          obtain ⟨before, after, entries, -⟩ := List.lookup_eq_some_iff.1 found
          refine absurd (List.any_eq_true.2 ⟨j, ?_, by simp [low, high]⟩) free
          rw [Registry.keys, entries]
          simp
      apply (makeBuffers_yields W capacity count key unused).bind
      rintro ⟨s1, locators, stopped⟩ adds
      exact Checked.yields_pure.2 ⟨adds.wf, fun m H => H.same fun i l _ lease _ => (adds.kept i l lease).2,
        fun refusal e => absurd e (Answer.ne_refused rfl refusal),
        .of_kept W (fun _ _ => Cursors.after_of_no_target rfl) adds.handles
          (fun i l lease => congrArg Core.cursors (adds.kept i l lease).1),
        .keeps (.fills adds.turns) adds.sharers,
        Pool.keepsCeilings_of_cores fun i l lease => (adds.kept i l lease).1, fun _ => referenced, adds.closed⟩

/-! ## Views -/

/-- What an operation that makes a view has to do for a command that makes one. -/
def Makes (s : Session) (id : CoreId) (r : Pool × Answered View) : Prop :=
  (∃ refusal, r = (s.pool, .error refusal)) ∨
  ∃ w : View, r.2 = .ok w ∧ w.core = id ∧ w.Fits ∧ s.pool.Retains id r.1

theorem effect_newView (W : s.Wf) (free : s.handles.get? key = none) {source : Nat} {h : Handle}
    (found : s.handles.get? source = some h) {w : View} (on : h.core? = some w.core) (F : w.Fits)
    (retains : s.pool.Retains w.core p) (aside : command.target? = none) :
    Effect s command ((s.withPool p).withHandle key (.view w), .done) where
  wf := by
    obtain ⟨l, lease, -⟩ := W.core_of_get? found on
    refine W.added free rfl nofun retains.frame ⟨⟨l, by rw [retains.core]; exact lease⟩, F⟩ ?_
    rw [retains.core, (W.shared _ l lease).1]
  holds m H := by
    rw [Known.after_of_no_target aside]
    exact H.frame retains.frame fun _ _ _ _ => retains.bytes
  refused := nofun
  moves := by
    refine .of_kept W (fun _ _ => Cursors.after_of_no_target aside)
      (fun _ _ found => Registry.get?_insert_of_free free found) fun i _ _ => ?_
    change (p.core i).cursors = _
    by_cases here : i = w.core
    · rw [here, retains.core]
      rfl
    · rw [retains.frame.cores i here]
  advances := .keeps retains.rests.course fun i => by
    rw [sharers_added W.ordered free]
    exact Nat.le_add_right _ _
  ceilings := retains.frame.keepsCeilings fun _ _ => by rw [retains.core]
  referenced _ := by
    obtain ⟨l, lease, -⟩ := W.core_of_get? found on
    exact isReferenced_of_bound (Registry.mem_values found) on lease
  closed := rfl

theorem Makes.effect (W : s.Wf) (free : s.handles.get? key = none) {source : Nat} {h : Handle}
    (found : s.handles.get? source = some h) {id : CoreId} (on : h.core? = some id)
    (aside : command.target? = none) {r : Pool × Answered View} (made : Makes s id r) :
    Checked.Yields (match r with
      | (pool, .error refusal) => pure (s.withPool pool, .refused refusal)
      | (pool, .ok view) => pure ((s.withPool pool).withHandle key (.view view), .done))
        (Effect s command) := by
  obtain ⟨p, answer⟩ := r
  rcases made with ⟨refusal, e⟩ | ⟨w, rfl, core, F, retains⟩
  · cases e
    obtain ⟨l, lease, -⟩ := W.core_of_get? found on
    have referenced := isReferenced_of_bound (Registry.mem_values found) on lease
    exact Checked.yields_pure.2 (.refuse W referenced (.refl W.pool) refusal)
  · exact Checked.yields_pure.2
      (effect_newView W free found (core.symm ▸ on) F (core.symm ▸ retains) aside)

theorem makeView_yields (W : s.Wf) (key source : Nat)
    {ofBuffer : Buffer → Checked (Pool × Answered View)}
    {ofView : View → Option (Checked (Pool × Answered View))}
    (buffer : ∀ b l, (s.pool.core b.core).lease = some l → 0 < (s.pool.core b.core).refs →
      (ofBuffer b).Yields (Makes s b.core))
    (view : ∀ v l made, v.Fits → (s.pool.core v.core).lease = some l →
      0 < (s.pool.core v.core).refs → ofView v = some made → made.Yields (Makes s v.core))
    (aside : command.target? = none) :
    (s.makeView key source ofBuffer ofView).Yields (Effect s command) := by
  unfold makeView
  split
  · exact Checked.yields_pure.2 (.idle W rfl rfl)
  · rename_i used
    have free := get?_of_contains used
    cases found : s.handles.get? source with
    | none => exact Checked.yields_pure.2 (.idle W rfl rfl)
    | some handle =>
      cases handle with
      | buffer b =>
        obtain ⟨l, lease, refs⟩ := W.core_of_get? found rfl
        apply (buffer b l lease refs).bind
        intro r makes
        exact makes.effect W free found rfl aside
      | view v =>
        obtain ⟨l, lease, refs⟩ := W.core_of_get? found rfl
        have fits : v.Fits := (W.fits _ (Registry.mem_values found)).2
        cases made : ofView v with
        | none =>
          simp only [made]
          exact Checked.yields_pure.2 (.idle W rfl rfl)
        | some made' =>
          simp only [made]
          apply (view v l made' fits lease refs made).bind
          intro r makes
          exact makes.effect W free found rfl aside
      | core _ => exact Checked.yields_pure.2 (.idle W rfl rfl)
      | subpages _ => exact Checked.yields_pure.2 (.idle W rfl rfl)

/-- An operation that makes a view and is never refused. -/
theorem makes_granted {b : CoreId} {made : Checked (Pool × View)}
    (h : made.Yields fun r => r.2.core = b ∧ r.2.Fits ∧ s.pool.Retains b r.1) :
    (granted made).Yields (Makes s b) := by
  unfold granted
  apply h.bind
  intro ⟨p, w⟩ ⟨core, F, retains⟩
  exact Checked.yields_pure.2 (.inr ⟨w, rfl, core, F, retains⟩)

theorem duplicate_yields (W : s.Wf) (key source : Nat) :
    (s.run (.duplicate key source)).Yields (Effect s (.duplicate key source)) := by
  rw [run]
  refine makeView_yields W key source (fun b l lease refs => ?_) (fun v l made F lease refs e => ?_)
    rfl
  · exact makes_granted (Buffer.duplicate_yields W.pool lease refs)
  · cases e
    refine makes_granted ((View.duplicate_yields W.pool lease refs).mono ?_)
    intro ⟨p, w⟩ outcome
    obtain ⟨retains, rfl⟩ := outcome
    exact ⟨rfl, F, retains⟩

theorem slice_yields (W : s.Wf) (key source index length : Nat) :
    (s.run (.slice key source index length)).Yields (Effect s (.slice key source index length)) := by
  rw [run]
  refine makeView_yields W key source (fun b l lease refs => ?_) (fun v l made F lease refs e => ?_)
    rfl
  · exact Buffer.slice_yields W.pool lease refs index length
  · cases e
    exact View.slice_yields F W.pool lease refs index length

theorem sliceReadable_yields (W : s.Wf) (key source : Nat) :
    (s.run (.sliceReadable key source)).Yields (Effect s (.sliceReadable key source)) := by
  rw [run]
  refine makeView_yields W key source (fun b l lease refs => ?_) (fun v l made F lease refs e => ?_)
    rfl
  · exact makes_granted (Buffer.sliceReadable_yields W.pool lease refs)
  · cases e

/-! ## Giving up -/

/-- Handles were given up: who still refers to the arena did so before, and the buffers that stay in use read
as before. -/
structure Spares (s s' : Session) : Prop where
  wf : s'.Wf
  cores : ∀ i l', (s'.pool.core i).lease = some l' → (∃ l, (s.pool.core i).lease = some l) ∧
    (s'.pool.core i).cursors = (s.pool.core i).cursors ∧ ∀ k, s'.pool.byte? i k = s.pool.byte? i k
  turns : s.pool.Drains s'.pool
  ceilings : s.pool.KeepsCeilings s'.pool
  handles : ∀ h ∈ s'.handles.values, h ∈ s.handles.values
  kept : ∀ key h, s'.handles.get? key = some h → s.handles.get? key = some h
  attached : s'.attached = s.attached
  closed : s'.closed = s.closed

theorem Spares.refl (W : s.Wf) : s.Spares s :=
  ⟨W, fun _ l lease => ⟨⟨l, lease⟩, rfl, fun _ => rfl⟩, .refl, Pool.keepsCeilings_of_cores fun _ _ _ => rfl,
    fun _ h => h, fun _ _ h => h, rfl, rfl⟩

theorem Spares.trans {s'' : Session} (h : s.Spares s') (h' : s'.Spares s'') : s.Spares s'' where
  wf := h'.wf
  cores i l lease := by
    obtain ⟨⟨l', lease'⟩, cursors', bytes'⟩ := h'.cores i l lease
    obtain ⟨bound, cursors, bytes⟩ := h.cores i l' lease'
    exact ⟨bound, cursors'.trans cursors, fun k => (bytes' k).trans (bytes k)⟩
  turns := h.turns.trans h'.turns
  ceilings i l l'' lease lease'' := by
    obtain ⟨⟨l', lease'⟩, -⟩ := h'.cores i l'' lease''
    exact (h'.ceilings i l' l'' lease' lease'').trans (h.ceilings i l l' lease lease')
  handles k hk := h.handles k (h'.handles k hk)
  kept key k found := h.kept key k (h'.kept key k found)
  attached := h'.attached.trans h.attached
  closed := h'.closed.trans h.closed

/-- A reference is returned, with the lease if it was the last. -/
theorem release_spares (W : s.Wf) {h : Handle} {id : CoreId} (found : s.handles.get? key = some h)
    (on : h.core? = some id) : (s.pool.release id).Yields fun p =>
      s.Spares { s with handles := s.handles.erase key, pool := p } := by
  obtain ⟨l, lease, refs⟩ := W.core_of_get? found on
  apply (Pool.release_yields W.pool lease refs).mono
  intro p ⟨frame, last⟩
  refine ⟨W.dropped found on frame ?_, fun i l' lease' => ?_, .single ?_,
    frame.keepsCeilings fun l' lease' => ?_, fun _ => mem_erase, fun _ _ => Registry.get?_of_erase, rfl, rfl⟩
  · split at last
    · rename_i one
      rw [if_pos one]
      exact last.gone
    · rename_i more
      rw [if_neg more]
      exact last.2.1
  · change (p.core i).lease = some l' at lease'
    by_cases same : i = id
    · subst same
      split at last
      · rw [last.gone] at lease'
        cases lease'
      · exact ⟨⟨l, lease⟩, by rw [last.2.1]; rfl, last.2.2⟩
    · have core := frame.cores i same
      rw [core] at lease'
      exact ⟨⟨l', lease'⟩, congrArg Core.cursors core, frame.bytes i same⟩
  · split at last
    · exact .inr ⟨id, l, last⟩
    · exact .inl last.1
  · split at last
    · rw [last.gone] at lease'
      cases lease'
    · rw [last.2.1]

theorem dropHandle_yields (W : s.Wf) {h : Handle} (found : s.handles.get? key = some h) :
    (s.dropHandle key h).Yields s.Spares := by
  unfold dropHandle
  cases h with
  | buffer b => exact (release_spares W found rfl).bind fun p spares => Checked.yields_pure.2 spares
  | view v => exact (release_spares W found rfl).bind fun p spares => Checked.yields_pure.2 spares
  | core id => exact (W.fits _ (Registry.mem_values found)).elim
  | subpages ids =>
    refine Checked.yields_pure.2 ⟨⟨W.pool, W.ordered.erase key, W.solo.erase key,
      fun k hk => W.fits k (mem_erase hk), fun i l lease => ?_⟩,
      fun i l lease => ⟨⟨l, lease⟩, rfl, fun _ => rfl⟩, .refl,
      Pool.keepsCeilings_of_cores fun _ _ _ => rfl, fun _ => mem_erase, fun _ _ => Registry.get?_of_erase,
      rfl, rfl⟩
    have count := sharers_of_get? W.ordered found i
    rw [if_neg (by nofun), Nat.add_zero] at count
    rw [show ({ s with handles := s.handles.erase key } : Session).sharers i = s.sharers i from
      count.symm]
    exact W.shared i l lease

theorem dropAll_yields (W : s.Wf) (keys : List Nat) :
    (s.dropAll keys).Yields fun r => s.Spares r.1 := by
  induction keys generalizing s with
  | nil => exact Checked.yields_ok.2 (.refl W)
  | cons key rest ih =>
    unfold dropAll
    cases found : s.handles.get? key with
    | none => exact ih W
    | some h =>
      apply (dropHandle_yields W found).bind
      intro s1 spares
      apply (ih spares.wf).bind
      intro ⟨s2, count⟩ spares2
      exact Checked.yields_pure.2 (spares.trans spares2)

/-- Giving handles up brings no new reference to the arena. -/
theorem Spares.isReferenced (h : s.Spares s') (referenced : s'.isReferenced = true) :
    s.isReferenced = true :=
  h.wf.isReferenced_mono h.attached.symm h.handles (fun i l lease => (h.cores i l lease).1) referenced

/-- A handle that is there when others were given up is the one that was there before. -/
theorem Spares.moves (h : s.Spares s') {answer : Answer} (gives : command.givesUp = true)
    (aside : command.target? = none) : s.Moves command (s', answer) where
  buffer key b found := by
    rw [Cursors.after_of_no_target aside]
    cases found' : s'.handles.get? key with
    | none => exact .inl ⟨gives, rfl⟩
    | some k =>
      cases (h.kept key k found').symm.trans found
      obtain ⟨l', lease', -⟩ := h.wf.core_of_get? found' rfl
      exact .inr ⟨rfl, (h.cores _ l' lease').2.1⟩
  view key v found := by
    rw [Cursors.after_of_no_target aside]
    cases found' : s'.handles.get? key with
    | none => exact .inl ⟨gives, rfl⟩
    | some k =>
      cases (h.kept key k found').symm.trans found
      exact .inr rfl

theorem Spares.effect (h : s.Spares s') {answer : Answer} (plain : answer.isRefusal = false)
    (gives : command.givesUp = true) (aside : command.target? = none) : Effect s command (s', answer) where
  wf := h.wf
  holds m H := by
    rw [Known.after_of_no_target aside]
    exact H.same fun i _ l' _ lease' => (h.cores i l' lease').2.2
  moves := h.moves gives aside
  refused refusal e := absurd e (Answer.ne_refused plain refusal)
  advances := .drops gives h.turns
  ceilings := h.ceilings
  referenced := h.isReferenced
  closed := h.closed

theorem drop_yields (W : s.Wf) (key : Nat) : (s.run (.drop key)).Yields (Effect s (.drop key)) := by
  change (s.drop key).Yields _
  unfold drop
  cases found : s.handles.get? key with
  | none => exact Checked.yields_pure.2 (.idle W rfl rfl)
  | some h =>
    exact (dropHandle_yields W found).bind fun s1 spares =>
      Checked.yields_pure.2 (spares.effect rfl rfl rfl)

theorem dropRange_yields (W : s.Wf) (key stop step : Nat) :
    (s.run (.dropRange key stop step)).Yields (Effect s (.dropRange key stop step)) := by
  apply (dropAll_yields W _).bind
  intro ⟨s1, count⟩ spares
  exact Checked.yields_pure.2 (spares.effect rfl rfl rfl)

end Session

end BufferPool
