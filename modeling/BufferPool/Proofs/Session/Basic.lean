import BufferPool.Proofs.Session.Registry
import BufferPool.Proofs.View
import BufferPool.Session.Command

/-!
# The invariant of a session

In a well-formed session (`Session.Wf`) every buffer and view is on a core in use, no two buffers are on one
core, and a core in use counts exactly the handles on it. Each command changes the pool in one of a few ways
and the handles with it; for each way there is one statement here that the session stays well formed.
-/

namespace BufferPool

/-- Whether a handle keeps a core alive. -/
def Handle.uses (id : CoreId) (h : Handle) : Bool := h.core? == some id

theorem Handle.uses_iff {id : CoreId} {h : Handle} : h.uses id = true ↔ h.core? = some id :=
  beq_iff_eq

/-- A handle that keeps one core alive keeps no other. -/
theorem Handle.uses_ne {id i : CoreId} {h : Handle} (on : h.core? = some id) (ne : i ≠ id) :
    ¬ h.uses i = true := by
  rw [uses_iff, on]
  exact fun e => ne (Option.some.inj e).symm

/-- A handle of the interface, on a core in use. -/
def Handle.Fits (p : Pool) : Handle → Prop
  | .buffer b => ∃ l, (p.core b.core).lease = some l
  | .view v => (∃ l, (p.core v.core).lease = some l) ∧ v.Fits
  | .core _ => False
  | .subpages _ => True

theorem Handle.Fits.bound {p : Pool} {h : Handle} {id : CoreId} (fits : h.Fits p)
    (on : h.core? = some id) : ∃ l, (p.core id).lease = some l := by
  cases h with
  | buffer b => cases on; exact fits
  | view v => cases on; exact fits.1
  | core _ => exact fits.elim
  | subpages _ => cases on

/-- A handle fits as long as its core is in use. -/
theorem Handle.Fits.transfer {p p' : Pool} {h : Handle} (fits : h.Fits p)
    (bound : ∀ id, h.core? = some id → ∃ l, (p'.core id).lease = some l) : h.Fits p' := by
  cases h with
  | buffer b => exact bound _ rfl
  | view v => exact ⟨bound _ rfl, fits.2⟩
  | core _ => exact fits
  | subpages _ => exact fits

/-- Different buffers have different cores. -/
def OwnCores (handles : Registry Handle) : Prop :=
  ∀ key key' b, handles.get? key = some (.buffer b) → handles.get? key' = some (.buffer b) → key = key'

namespace OwnCores

variable {handles : Registry Handle}

theorem empty : OwnCores .empty := nofun

theorem erase (own : OwnCores handles) (key : Nat) : OwnCores (handles.erase key) :=
  fun i j b hi hj => own i j b (Registry.get?_of_erase hi) (Registry.get?_of_erase hj)

/-- A handle is put under a number, on a core that no buffer has under another one. -/
theorem insert (own : OwnCores handles) {key : Nat} {h : Handle}
    (sole : ∀ b, h = .buffer b → ∀ j, j ≠ key → handles.get? j ≠ some (.buffer b)) :
    OwnCores (handles.insert key h) := by
  have other : ∀ i j b, i ≠ key → (handles.insert key h).get? i = some (.buffer b) →
      (handles.insert key h).get? j = some (.buffer b) → i = j := by
    intro i j b ne hi hj
    rw [Registry.get?_insert_ne ne] at hi
    by_cases here : j = key
    · rw [here, Registry.get?_insert_self] at hj
      exact absurd hi (sole b (Option.some.inj hj) i ne)
    · rw [Registry.get?_insert_ne here] at hj
      exact own i j b hi hj
  intro i j b hi hj
  by_cases here : i = key
  · by_cases here' : j = key
    · exact here.trans here'.symm
    · exact (other j i b here' hj hi).symm
  · exact other i j b here hi hj

end OwnCores

namespace Session

variable {s s' : Session} {p : Pool} {id : CoreId} {key : Nat} {h : Handle}

/-- How many handles keep a core alive. -/
def sharers (s : Session) (id : CoreId) : Nat := s.handles.values.countP (Handle.uses id)

/-- A session whose handles and cores agree. -/
structure Wf (s : Session) : Prop where
  pool : s.pool.Wf
  ordered : s.handles.Ordered
  solo : OwnCores s.handles
  fits : ∀ h ∈ s.handles.values, h.Fits s.pool
  shared : ∀ id l, (s.pool.core id).lease = some l →
    (s.pool.core id).refs = s.sharers id ∧ 0 < s.sharers id

/-- The core of a handle is in use and counted. -/
theorem Wf.core_of_get? (W : s.Wf) (found : s.handles.get? key = some h) (on : h.core? = some id) :
    ∃ l, (s.pool.core id).lease = some l ∧ 0 < (s.pool.core id).refs := by
  obtain ⟨l, lease⟩ := (W.fits h (Registry.mem_values found)).bound on
  obtain ⟨refs, used⟩ := W.shared id l lease
  exact ⟨l, lease, by rw [refs]; exact used⟩

/-- A core without a lease has no handles. -/
theorem Wf.sharers_free (W : s.Wf) (free : (s.pool.core id).lease = none) : s.sharers id = 0 := by
  apply List.countP_eq_zero.2
  intro h hh uses
  obtain ⟨l, lease⟩ := (W.fits h hh).bound (Handle.uses_iff.1 uses)
  rw [free] at lease
  cases lease

/-- The invariant after a change of one core and of the handles on it. -/
theorem Wf.change (W : s.Wf) (frame : s.pool.Frame id s'.pool) (ordered : s'.handles.Ordered)
    (solo : OwnCores s'.handles)
    (fits : ∀ h ∈ s'.handles.values, h ∈ s.handles.values ∨ h.Fits s'.pool)
    (others : ∀ i, i ≠ id → s'.sharers i = s.sharers i)
    (bound : 0 < s'.sharers id → ∃ l, (s'.pool.core id).lease = some l)
    (shared : ∀ l, (s'.pool.core id).lease = some l →
      (s'.pool.core id).refs = s'.sharers id ∧ 0 < s'.sharers id) : s'.Wf where
  pool := frame.wf
  ordered := ordered
  solo := solo
  fits h hh := by
    rcases fits h hh with old | new
    · apply (W.fits h old).transfer
      intro i on
      by_cases same : i = id
      · subst same
        exact bound (List.countP_pos_iff.2 ⟨h, hh, Handle.uses_iff.2 on⟩)
      · rw [frame.cores i same]
        exact (W.fits h old).bound on
    · exact new
  shared i l hl := by
    by_cases same : i = id
    · subst same
      exact shared l hl
    · rw [frame.cores i same] at hl ⊢
      rw [others i same]
      exact W.shared i l hl

/-- The invariant after an operation on a core by one of its handles. -/
theorem Wf.uses (W : s.Wf) (found : s.handles.get? key = some h) (on : h.core? = some id)
    (u : s.pool.Uses id p) : (s.withPool p).Wf := by
  obtain ⟨l, lease, -⟩ := W.core_of_get? found on
  refine W.change u.frame W.ordered W.solo (fun h hh => .inl hh) (fun _ _ => rfl) (fun _ => u.bound)
    fun k _ => ?_
  rw [show (s.withPool p).pool = p from rfl, u.refs]
  exact W.shared id l lease

/-- The invariant after a refused operation. -/
theorem Wf.unaffected (W : s.Wf) (same : s.pool.Unaffected p) : (s.withPool p).Wf where
  pool := same.wf
  ordered := W.ordered
  solo := W.solo
  fits h hh := (W.fits h hh).transfer fun i on => by
    obtain ⟨l, lease⟩ := (W.fits h hh).bound on
    exact ⟨l, by rw [show (s.withPool p).pool = p from rfl, same.cores i l lease, lease]⟩
  shared i l hl := by
    change (p.core i).lease = some l at hl
    cases lease : (s.pool.core i).lease with
    | none =>
      rw [same.unbound i lease] at hl
      cases hl
    | some k =>
      change (p.core i).refs = s.sharers i ∧ _
      rw [same.cores i k lease]
      exact W.shared i k lease

/-! ## Handles that come and go -/

theorem sharers_withHandle (ordered : s.handles.Ordered) (i : CoreId) :
    (s.withHandle key h).sharers i = (s.handles.erase key).values.countP (Handle.uses i) +
      if h.uses i then 1 else 0 :=
  ((Registry.perm_insert ordered key h).countP_eq _).trans List.countP_cons

theorem sharers_of_get? (ordered : s.handles.Ordered) (found : s.handles.get? key = some h)
    (i : CoreId) : s.sharers i = (s.handles.erase key).values.countP (Handle.uses i) +
      if h.uses i then 1 else 0 :=
  ((Registry.perm_erase ordered found).countP_eq _).trans List.countP_cons

/-- A handle under a free number is one more on its core. -/
theorem sharers_added (ordered : s.handles.Ordered) (free : s.handles.get? key = none) (i : CoreId) :
    ((s.withPool p).withHandle key h).sharers i = s.sharers i + if h.uses i then 1 else 0 := by
  rw [sharers_withHandle (s := s.withPool p) ordered]
  change (s.handles.erase key).values.countP _ + _ = _
  rw [Registry.erase_of_none free]
  rfl

/-- A view in the place of another one on the same core makes no difference. -/
theorem sharers_replaced (ordered : s.handles.Ordered) {v w : View}
    (found : s.handles.get? key = some (.view v)) (core : w.core = v.core) (i : CoreId) :
    ((s.withPool p).withHandle key (.view w)).sharers i = s.sharers i := by
  rw [sharers_withHandle (s := s.withPool p) ordered, sharers_of_get? ordered found]
  simp only [Handle.uses, Handle.core?, core]
  rfl

theorem mem_erase (hh : h ∈ (s.handles.erase key).values) : h ∈ s.handles.values := by
  obtain ⟨e, he, rfl⟩ := List.mem_map.1 hh
  exact List.mem_map.2 ⟨e, (List.mem_filter.1 he).1, rfl⟩

theorem mem_withHandle (ordered : s.handles.Ordered) {k : Handle}
    (hk : k ∈ (s.withHandle key h).handles.values) : k = h ∨ k ∈ s.handles.values := by
  rcases List.mem_cons.1 ((Registry.perm_insert ordered key h).mem_iff.1 hk) with rfl | old
  · exact .inl rfl
  · exact .inr (mem_erase old)

/-- The invariant after an operation that moves the cursors of a view. -/
theorem Wf.replaced (W : s.Wf) {v w : View} (found : s.handles.get? key = some (.view v))
    (core : w.core = v.core) (F : w.Fits) (u : s.pool.Uses v.core p) :
    ((s.withPool p).withHandle key (.view w)).Wf := by
  obtain ⟨l, lease, -⟩ := W.core_of_get? found rfl
  have same := sharers_replaced (p := p) W.ordered found core
  refine W.change u.frame (W.ordered.insert key _) (W.solo.insert nofun) (fun k hk => ?_)
    (fun i _ => same i) (fun _ => u.bound) fun k _ => ?_
  · rcases mem_withHandle W.ordered hk with rfl | old
    · exact .inr ⟨core ▸ u.bound, F⟩
    · exact .inl old
  · rw [same]
    change (p.core v.core).refs = _ ∧ _
    rw [u.refs]
    exact W.shared _ l lease

/-- The invariant after a handle is added on a core that counts it. A buffer is added on a free core. -/
theorem Wf.added (W : s.Wf) (free : s.handles.get? key = none) (on : h.core? = some id)
    (sole : ∀ b, h = .buffer b → (s.pool.core id).lease = none) (frame : s.pool.Frame id p)
    (fits : h.Fits p) (refs : (p.core id).refs = s.sharers id + 1) :
    ((s.withPool p).withHandle key h).Wf := by
  have count := sharers_added (p := p) (h := h) W.ordered free
  refine W.change frame (W.ordered.insert key _) (W.solo.insert fun b mine j _ found => ?_) (fun k hk => ?_)
    (fun i ne => ?_) (fun _ => fits.bound on) fun k _ => ?_
  · obtain ⟨l, lease, -⟩ := W.core_of_get? found (mine ▸ on)
    rw [sole b mine] at lease
    cases lease
  · rcases mem_withHandle W.ordered hk with rfl | old
    · exact .inr fits
    · exact .inl old
  · rw [count, if_neg (Handle.uses_ne on ne)]
    rfl
  · rw [count, if_pos (Handle.uses_iff.2 on)]
    exact ⟨refs, Nat.succ_pos _⟩

/-- The invariant after a handle without a core is added. -/
theorem Wf.kept (W : s.Wf) (free : s.handles.get? key = none) (ids : List SubpageId) :
    (s.withHandle key (.subpages ids)).Wf where
  pool := W.pool
  ordered := W.ordered.insert key _
  solo := W.solo.insert nofun
  fits k hk := by
    rcases mem_withHandle W.ordered hk with rfl | old
    · trivial
    · exact W.fits k old
  shared i l hl := by
    rw [sharers_withHandle W.ordered, Registry.erase_of_none free]
    exact W.shared i l hl

/-- The invariant after a handle is given up and its core no longer counts it. -/
theorem Wf.dropped (W : s.Wf) (found : s.handles.get? key = some h) (on : h.core? = some id)
    (frame : s.pool.Frame id p)
    (refs : if (s.pool.core id).refs = 1 then (p.core id).lease = none
      else p.core id = { s.pool.core id with refs := (s.pool.core id).refs - 1 }) :
    ({ s with handles := s.handles.erase key, pool := p } : Session).Wf := by
  obtain ⟨l, lease, used⟩ := W.core_of_get? found on
  have counted := (W.shared id l lease).1
  have count := sharers_of_get? W.ordered found
  have left := count id
  rw [if_pos (Handle.uses_iff.2 on)] at left
  refine W.change frame (W.ordered.erase key) (W.solo.erase key) (fun k hk => ?_) (fun i ne => ?_)
    (fun more => ?_) fun k hk => ?_
  · exact .inl (mem_erase hk)
  · rw [count i, if_neg (Handle.uses_ne on ne)]
    rfl
  · change 0 < (s.handles.erase key).values.countP _ at more
    rw [if_neg (by omega)] at refs
    exact ⟨l, by rw [refs]; exact lease⟩
  · change (p.core id).refs = (s.handles.erase key).values.countP _ ∧
      0 < (s.handles.erase key).values.countP _
    split at refs
    · rw [refs] at hk
      cases hk
    · rw [refs]
      simp only
      omega

end Session

end BufferPool
