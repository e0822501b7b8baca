import BufferPool.Proofs.Session.Run

/-!
# Buffers as arrays of their own

All buffers share the chunks of one arena, yet no two leases ever overlap (`Session.Exclusive`). Therefore
every buffer reads as an array of its own: what is known of it, by what was written through it and its
views, is what it and they read.
-/

namespace BufferPool

namespace Session

variable {s : Session}

/-- The leases in use own their regions. -/
structure Exclusive (s : Session) : Prop where
  /-- The chunk of a pooled lease is held by the arena, and the region lies inside. -/
  held : ∀ i l r, (s.pool.core i).lease = some l → l.location = .pooled r →
    s.closed = false ∧ ∃ c ∈ s.pool.arena.chunks, c.chunk = l.chunk ∧
      l.offset + l.maxLength ≤ c.chunk.size
  /-- On one chunk, the regions of two leases are apart. -/
  apart : ∀ i j l k r q, i ≠ j → (s.pool.core i).lease = some l → (s.pool.core j).lease = some k →
    l.location = .pooled r → k.location = .pooled q → l.chunk.id = k.chunk.id →
      l.offset + l.maxLength ≤ k.offset ∨ k.offset + k.maxLength ≤ l.offset
  /-- Two leases of some bytes differ in the chunk or in the locator. -/
  named : ∀ i j l k r q, i ≠ j → (s.pool.core i).lease = some l → (s.pool.core j).lease = some k →
    l.location = .pooled r → k.location = .pooled q → 0 < l.maxLength → 0 < k.maxLength →
      (l.chunk.id, r) ≠ (k.chunk.id, q)

theorem Sound.exclusive (S : s.Sound) : s.Exclusive := by
  have W := S.wf.pool
  have apart : ∀ i j l k r q, i ≠ j → (s.pool.core i).lease = some l → (s.pool.core j).lease = some k →
      l.location = .pooled r → k.location = .pooled q → l.chunk.id = k.chunk.id →
        l.offset + l.maxLength ≤ k.offset ∨ k.offset + k.maxLength ≤ l.offset := by
    intro i j l k r q ne hl hk pooled pooled' same
    refine (W.apart i j l k ne hl hk).resolve_left fun other => other ?_
    exact (W.held i l hl).memory_eq W.arena (W.held j k hk) pooled pooled' same
  refine ⟨fun i l r hl pooled => ⟨S.open_of_bound hl, (W.held i l hl).held W.arena pooled⟩, apart, ?_⟩
  intro i j l k r q ne hl hk pooled pooled' some_l some_k same
  obtain ⟨chunk, rfl⟩ := Prod.mk.inj same
  have start := (W.held i l hl).offset_eq W.arena (W.held j k hk) pooled pooled' chunk
  rcases apart i j l k r r ne hl hk pooled pooled' chunk with before | after
  · omega
  · omega

/-! ## What is known along a run -/

/-- Runs commands one after the other and keeps track of what is known. -/
def follow (s : Session) (known : Known) : (commands : List Command) → Checked (Session × Known)
  | [] => .ok (s, known)
  | command :: rest => do
    let r ← s.step command
    r.1.follow (known.after s command r) rest

/-- To keep track is to play, and buffers read as what is known of them, at the end of any run. -/
theorem follow_yields (S : s.Sound) {known : Known} (H : s.pool.Holds known) (commands : List Command)
    (isPublic : ∀ command ∈ commands, command.isPublic = true) : (s.follow known commands).Yields fun r =>
      s.play commands = .ok r.1 ∧ r.1.Sound ∧ r.1.pool.Holds r.2 := by
  induction commands generalizing s known with
  | nil => exact Checked.yields_ok.2 ⟨rfl, S, H⟩
  | cons command rest ih =>
    obtain ⟨r, step, effect⟩ := step_yields S command (isPublic _ List.mem_cons_self)
    apply Checked.Yields.bind_ok step
    apply (ih effect.sound (effect.holds known H) fun c hc => isPublic c (List.mem_cons_of_mem _ hc)).mono
    intro r' ⟨played, sound, holds⟩
    refine ⟨?_, sound, holds⟩
    rw [play, step]
    exact played

/-- An answer with bytes that agree with what is known of a buffer from an index on. -/
def Answer.Delivers (answer : Answer) (known : Known) (id : CoreId) (index length : Nat) : Prop :=
  ∃ data, answer = .bytes data ∧ data.size = length ∧
    ∀ k < length, ∀ byte, known id (index + k) = some byte → data.data[k]? = some byte

theorem delivers_of_reads {known : Known} (H : s.pool.Holds known) {id : CoreId} {l : Lease}
    (lease : (s.pool.core id).lease = some l) {index length : Nat} {answer : Answered ByteArray}
    (reads : s.pool.Reads id index length answer) :
    (Answer.ofBytes answer).Delivers known id index length := by
  obtain ⟨data, rfl, size, read⟩ := reads
  exact ⟨data, rfl, size, fun k hk byte mapped => by rw [read k hk, H id l lease _ byte mapped]⟩

theorem getBytes_buffer (S : s.Sound) {known : Known} (H : s.pool.Holds known) {key : Nat} {b : Buffer}
    (found : s.handles.get? key = some (.buffer b)) {index length : Nat}
    (inside : index + length ≤ b.capacity s.pool) :
    (s.step (.getBytes key index length)).Yields fun r => r.2.Delivers known b.core index length := by
  obtain ⟨l, lease, -⟩ := S.wf.core_of_get? found rfl
  rw [Buffer.capacity_eq lease] at inside
  unfold step
  simp only [run, getBytes, onEither, found, Buffer.getBytes, bind_assoc, pure_bind]
  apply (Pool.getBytes_yields S.wf.pool lease index length).bind
  intro answer outcome
  rcases outcome with ⟨beyond, -⟩ | ⟨-, reads⟩
  · omega
  · exact Checked.yields_pure.2 (delivers_of_reads H lease reads)

theorem getBytes_view (S : s.Sound) {known : Known} (H : s.pool.Holds known) {key : Nat} {v : View}
    (found : s.handles.get? key = some (.view v)) {index length : Nat}
    (inside : index + length ≤ v.capacity s.pool)
    (within : v.start + index + length ≤ (s.pool.core v.core).capacity) :
    (s.step (.getBytes key index length)).Yields fun r =>
      r.2.Delivers known v.core (v.start + index) length := by
  obtain ⟨l, lease, -⟩ := S.wf.core_of_get? found rfl
  have F : v.Fits := (S.wf.fits _ (Registry.mem_values found)).2
  rw [Core.capacity_eq lease] at within
  unfold step
  simp only [run, getBytes, onEither, found, bind_assoc, pure_bind]
  apply (View.getBytes_yields F S.wf.pool lease index length).bind
  intro answer outcome
  rcases outcome with ⟨beyond, -⟩ | ⟨-, -, reads⟩
  · omega
  · exact Checked.yields_pure.2 (delivers_of_reads H lease reads)

section

variable {config : PoolConfig} {supply : Supply} {pool : Pool} {commands : List Command}

/-- At the end of any run, no two leases share a byte, and each is on a chunk that the arena holds. -/
theorem leases_exclusive (created : Pool.createOn supply config = .ok pool)
    (lossless : config.pageSize * 2 ^ config.maxOrder < Word.bound)
    (isPublic : ∀ command ∈ commands, command.isPublic = true) :
    ((ofPool pool).play commands).Yields Exclusive :=
  (play_yields (sound_ofPool created lossless) commands isPublic).mono fun _ sound => sound.exclusive

/-- Two buffers of one page, and one of them again after it was given up. -/
theorem leases_exclusive_default :
    ((ofPool (.ofConfig {} .full)).play [.buffer 0 100, .buffer 1 100, .drop 0, .buffer 0 50]).Yields
      Exclusive :=
  leases_exclusive (show Pool.createOn .full {} = .ok (.ofConfig {} .full) from rfl) (by decide)
    (by decide)

/-- Any run can be kept track of, and at its end buffers and views read what is known of them, wherever a range
is inside. -/
theorem buffers_read_as_known (created : Pool.createOn supply config = .ok pool)
    (lossless : config.pageSize * 2 ^ config.maxOrder < Word.bound)
    (isPublic : ∀ command ∈ commands, command.isPublic = true) :
    ((ofPool pool).follow .empty commands).Yields fun r => (ofPool pool).play commands = .ok r.1 ∧
      (∀ key b, r.1.handles.get? key = some (.buffer b) →
        (∀ k byte, r.2 b.core k = some byte → k < b.capacity r.1.pool) ∧
        ∀ index length, index + length ≤ b.capacity r.1.pool →
          (r.1.step (.getBytes key index length)).Yields fun a =>
            a.2.Delivers r.2 b.core index length) ∧
      ∀ key v, r.1.handles.get? key = some (.view v) →
        ∀ index length, index + length ≤ v.capacity r.1.pool →
          v.start + index + length ≤ (r.1.pool.core v.core).capacity →
          (r.1.step (.getBytes key index length)).Yields fun a =>
            a.2.Delivers r.2 v.core (v.start + index) length := by
  have none : (ofPool pool).pool.Holds .empty := fun _ _ _ _ _ known => by cases known
  apply (follow_yields (sound_ofPool created lossless) none commands isPublic).mono
  intro ⟨s, known⟩ ⟨played, sound, H⟩
  refine ⟨played, fun key b found => ⟨fun k byte mapped => ?_, fun index length inside => ?_⟩,
    fun key v found index length inside within => ?_⟩
  · obtain ⟨l, lease, -⟩ := sound.wf.core_of_get? found rfl
    exact Pool.lt_of_byte? (H _ l lease k byte mapped)
  · exact getBytes_buffer sound H found inside
  · exact getBytes_view sound H found inside within

/-- What is written survives growing. -/
theorem buffers_read_as_known_default :
    ((ofPool (.ofConfig {} .full)).follow .empty
      [.buffer 0 16, .write 0 ⟨#[1, 2]⟩, .setCapacity 0 9000]).Yields fun r =>
        ∀ key b, r.1.handles.get? key = some (.buffer b) → 2 ≤ b.capacity r.1.pool →
          (r.1.step (.getBytes key 0 2)).Yields fun a => a.2.Delivers r.2 b.core 0 2 := by
  refine (buffers_read_as_known (show Pool.createOn .full {} = .ok (.ofConfig {} .full) from rfl)
    (by decide) (by decide)).mono ?_
  intro r outcome key b found inside
  obtain ⟨-, buffers, -⟩ := outcome
  exact (buffers key b found).2 0 2 inside

end

end Session

end BufferPool
