import BufferPool.Proofs.Session.Lineage

/-!
# What views reach

A view reads and writes the bytes of its buffer behind the sum of the starts that it was cut at. An access is
refused if it does not end inside the last range, and also if the buffer has shrunk and does not reach that far
any more; a refused access leaves everything as it was (`Session.Window`). This holds at the end of any run,
whatever happened to the buffer since the view was made.
-/

namespace BufferPool

namespace Session

variable {s : Session} {key index length : Nat} {command : Command} {v : View} {l : Lease} {p : Pool}
  {origin : Lineage} {bytes : ByteArray}

/-- What reading `length` bytes at `index` of a view does: nothing but to answer. -/
structure ReadsWindow (s : Session) (origin : Lineage) (l : Lease) (index length : Nat)
    (r : Session × Answer) : Prop where
  session : r.1 = s
  outside : origin.window l.length < index + length →
    r.2 = .refused (.outOfBounds index length (origin.window l.length))
  /-- The buffer does not reach that far. -/
  beyond : index + length ≤ origin.window l.length → l.length < origin.start + index + length →
    r.2 = .refused (.outOfBounds (origin.start + index) length l.length)
  bytes : index + length ≤ origin.window l.length → origin.start + index + length ≤ l.length →
    ∃ data, r.2 = .bytes data ∧ data.size = length ∧ ∀ k < length,
      data.data[k]? = some (s.pool.arena.heap.byteAt l.chunk.memory (l.offset + (origin.start + index) + k))

/-- What writing bytes at `index` of a view does: nothing if it is refused, and else only the bytes in the region
of the lease from there on change. -/
structure WritesWindow (s : Session) (origin : Lineage) (l : Lease) (index : Nat) (bytes : ByteArray)
    (r : Session × Answer) : Prop where
  outside : origin.window l.length < index + bytes.size →
    r = (s, .refused (.outOfBounds index bytes.size (origin.window l.length)))
  /-- The buffer does not reach that far. -/
  beyond : index + bytes.size ≤ origin.window l.length → l.length < origin.start + index + bytes.size →
    r = (s, .refused (.outOfBounds (origin.start + index) bytes.size l.length))
  written : index + bytes.size ≤ origin.window l.length → origin.start + index + bytes.size ≤ l.length →
    r.2 = .done ∧ r.1.handles = s.handles ∧ (∀ id, r.1.pool.core id = s.pool.core id) ∧
      ∀ memory position, r.1.pool.arena.heap.byteAt memory position =
        if memory = l.chunk.memory ∧ l.offset + (origin.start + index) ≤ position ∧
          position < l.offset + (origin.start + index) + bytes.size
        then bytes.data[position - (l.offset + (origin.start + index))]?.getD 0
        else s.pool.arena.heap.byteAt memory position

/-- The view under a number opens a window on the lease that its buffer has now. No sum of starts and indices
inside the window or the lease leaves the machine words. -/
structure Window (s : Session) (key : Nat) (origin : Lineage) (l : Lease) : Prop where
  lease : (s.pool.core origin.core).lease = some l
  window_lt : origin.start + origin.window l.length < Memory.limit
  lease_lt : l.offset + l.length < Memory.limit
  reads : ∀ index length, (s.step (.getBytes key index length)).Yields
    (s.ReadsWindow origin l index length)
  writes : ∀ index bytes, (s.step (.setBytes key index bytes)).Yields
    (s.WritesWindow origin l index bytes)

/-- What a command does through a view that stays as it is, the step does. -/
theorem step_onView (W : s.Wf) (found : s.handles.get? key = some (.view v))
    {onBuffer : Buffer → Checked (Pool × Answer)} {onView : View → Checked (Pool × View × Answer)}
    (isWork : s.run command = s.onEither key onBuffer onView) {answer : Answer}
    (e : onView v = .ok (p, v, answer)) (lease : (p.core v.core).lease = some l) :
    s.step command = .ok (s.withPool p, answer) := by
  have same : (s.withPool p).withHandle key (.view v) = s.withPool p := by
    rw [withHandle]
    exact congrArg (fun handles => { s.withPool p with handles := handles })
      (Registry.insert_same W.ordered found)
  have referenced : (s.withPool p).isReferenced = true :=
    isReferenced_of_bound (s := s.withPool p) (Registry.mem_values found) rfl lease
  have stays : (s.withPool p).settle = s.withPool p := settle_of_referenced referenced
  unfold step
  simp only [isWork, onEither, found, e, Checked.ok_bind, same]
  exact congrArg (fun s' => Except.ok (s', answer)) stays

theorem step_getBytes_view (W : s.Wf) (found : s.handles.get? key = some (.view v))
    (is : origin.Describes v) (lease : (s.pool.core origin.core).lease = some l) (index length : Nat) :
    (s.step (.getBytes key index length)).Yields (s.ReadsWindow origin l index length) := by
  have F : v.Fits := (W.fits _ (Registry.mem_values found)).2
  have mine : (s.pool.core v.core).lease = some l := by rw [is.core]; exact lease
  have capacity := is.capacity_eq lease
  have answered : ∀ answer, v.getBytes s.pool index length = .ok answer →
      s.step (.getBytes key index length) = .ok (s, .ofBytes answer) := fun answer e => by
    refine step_onView W found rfl ?_ mine
    rw [e]
    rfl
  rcases Nat.lt_or_ge (v.capacity s.pool) (index + length) with beyond | inside
  · have e := View.getBytes_of_lt beyond
    rw [capacity] at beyond e
    refine ⟨_, answered _ e, rfl, fun _ => rfl, fun within => ?_, fun within => ?_⟩
    · omega
    · omega
  · have e := View.getBytes_of_le F W.pool mine inside
    rw [Pool.getBytes_eq W.pool mine, is.start] at e
    rw [capacity] at inside
    refine ⟨_, answered _ e, rfl, fun beyond => ?_, fun _ beyond => ?_, fun _ within => ?_⟩
    · omega
    · rw [if_neg (Nat.not_le.2 beyond)]
      rfl
    · rw [if_pos within]
      exact ⟨_, rfl, Heap.size_slice, fun k hk => Heap.data_slice hk⟩

theorem step_setBytes_view (W : s.Wf) (found : s.handles.get? key = some (.view v))
    (is : origin.Describes v) (lease : (s.pool.core origin.core).lease = some l) (index : Nat)
    (bytes : ByteArray) :
    (s.step (.setBytes key index bytes)).Yields (s.WritesWindow origin l index bytes) := by
  have F : v.Fits := (W.fits _ (Registry.mem_values found)).2
  have mine : (s.pool.core v.core).lease = some l := by rw [is.core]; exact lease
  have capacity := is.capacity_eq lease
  have answered : ∀ p answer, v.setBytes s.pool index bytes = .ok (p, answer) →
      (p.core v.core).lease = some l →
        s.step (.setBytes key index bytes) = .ok (s.withPool p, .ofUnit answer) := fun p answer e bound => by
    refine step_onView W found rfl ?_ bound
    rw [e]
    rfl
  rcases Nat.lt_or_ge (v.capacity s.pool) (index + bytes.size) with beyond | inside
  · have e := View.setBytes_of_lt beyond
    rw [capacity] at beyond e
    refine ⟨_, answered _ _ e mine, fun _ => rfl, fun within => ?_, fun within => ?_⟩
    · omega
    · omega
  · have e := View.setBytes_of_le F W.pool mine inside
    rw [Pool.setBytes_eq W.pool mine, is.start] at e
    rw [capacity] at inside
    rcases Nat.lt_or_ge l.length (origin.start + index + bytes.size) with beyond | within
    · rw [if_neg (Nat.not_le.2 beyond)] at e
      refine ⟨_, answered _ _ e mine, fun _ => ?_, fun _ _ => rfl, fun _ within => ?_⟩
      · omega
      · omega
    · rw [if_pos within] at e
      obtain ⟨-, named, -⟩ := (W.pool.held _ l mine).fits W.pool.arena
      refine ⟨_, answered _ _ e mine, fun _ => ?_, fun _ _ => ?_, fun _ _ => ⟨rfl, rfl, fun _ => rfl, ?_⟩⟩
      · omega
      · omega
      · exact fun memory position => Heap.byteAt_overwrite named

/-- A view that is what its history says opens its window. -/
theorem Wf.window (W : s.Wf) (found : s.handles.get? key = some (.view v)) (is : origin.Describes v) :
    ∃ l, s.Window key origin l := by
  obtain ⟨l, mine, -⟩ := W.core_of_get? found rfl
  have F : v.Fits := (W.fits _ (Registry.mem_values found)).2
  have lease : (s.pool.core origin.core).lease = some l := by rw [← is.core]; exact mine
  have window := F.window W.pool mine
  rw [is.capacity_eq lease, is.start] at window
  exact ⟨l, lease, window, W.pool.length_lt lease, step_getBytes_view W found is lease,
    step_setBytes_view W found is lease⟩

section

variable {config : PoolConfig} {supply : Supply} {pool : Pool} {commands : List Command}

/-- At the end of any run every view reaches the bytes of the lease of its buffer that lie behind all the starts
that it was cut at, and no others. -/
theorem views_reach_by_lineage (created : Pool.createOn supply config = .ok pool)
    (lossless : config.pageSize * 2 ^ config.maxOrder < Word.bound)
    (isPublic : ∀ command ∈ commands, command.isPublic = true) (m : Lineages) :
    ((ofPool pool).descend m commands).Yields fun r =>
      ∀ key v, r.1.handles.get? key = some (.view v) → ∃ l, r.1.Window key (r.2 key) l := by
  have start : m.Describe (ofPool pool) := nofun
  apply (descend_yields (sound_ofPool created lossless) start commands isPublic).mono
  intro ⟨s, m⟩ ⟨sound, describes⟩ key v found
  exact sound.wf.window found (describes key v found)

/-- Three slices and a duplicate of one of them, under a buffer that shrinks and is given up. -/
theorem views_reach_by_lineage_default :
    ((ofPool (.ofConfig {} .full)).descend (fun _ => .whole 0) [.buffer 0 100, .setIndex 0 0 90,
      .slice 1 0 10 80, .duplicate 2 1, .slice 3 2 5 60, .setCapacity 0 40, .slice 4 3 20 30,
      .drop 0]).Yields fun r =>
        ∀ key v, r.1.handles.get? key = some (.view v) → ∃ l, r.1.Window key (r.2 key) l :=
  views_reach_by_lineage (show Pool.createOn .full {} = .ok (.ofConfig {} .full) from rfl) (by decide)
    (by decide) _

end

end Session

end BufferPool
