import BufferPool.Proofs.Session.Cursors

/-!
# What is known of the bytes

A buffer is meant to be an array of its own. `Known` is the idea a caller has of these arrays: nothing of a
new buffer, then what was written through it or its views, less what a change of capacity cut off. The
pool holds what is known (`Pool.Holds`) when its buffers read that way.
-/

namespace BufferPool

/-- For some indices of some buffers, the byte there. -/
abbrev Known := CoreId → Nat → Option UInt8

namespace Known

/-- Nothing is known. -/
def empty : Known := fun _ _ => none

/-- What is known of the buffers that exist; of one that is yet to be made, it is nothing. -/
def ofLive (m : Known) (p : Pool) : Known := fun id k => if (p.core id).isBound then m id k else none

/-- What is known of a buffer, below an index. -/
def below (m : Known) (id : CoreId) (n : Nat) : Known := fun i k =>
  if i = id ∧ n ≤ k then none else m i k

/-- What is known once bytes are written to a buffer. -/
def put (m : Known) (id : CoreId) (index : Nat) (bytes : ByteArray) : Known := fun i k =>
  if i = id ∧ index ≤ k ∧ k < index + bytes.size then bytes.data[k - index]? else m i k

/-- What is known after a command, given the session before it, and the session and the answer after it.
Only a change of capacity and a writing that succeed make a difference. -/
def after (m : Known) (s : Session) (command : Session.Command) (r : Session × Session.Answer) : Known :=
  let m := m.ofLive s.pool
  match command, r.2 with
  | .setCapacity key capacity, .done =>
    match s.handles.get? key with
    | some (.buffer b) => m.below b.core (min (b.capacity s.pool) capacity)
    | _ => m
  | .ensureWritable key _, .done =>
    match s.handles.get? key with
    | some (.buffer b) => m.below b.core (min (b.capacity s.pool) (b.capacity r.1.pool))
    | _ => m
  | .write key bytes, .done =>
    match s.handles.get? key with
    | some (.buffer b) =>
      (m.below b.core (min (b.capacity s.pool) (b.capacity r.1.pool))).put b.core
        (s.pool.core b.core).writer bytes
    | some (.view v) => m.put v.core (v.start + v.writer) bytes
    | _ => m
  | .setBytes key index bytes, .done =>
    match s.handles.get? key with
    | some (.buffer b) => m.put b.core index bytes
    | some (.view v) => m.put v.core (v.start + index) bytes
    | _ => m
  | _, _ => m

/-- Without success nothing is learned or forgotten of the buffers that exist. -/
theorem after_of_ne_done {m : Known} {s : Session} {command : Session.Command}
    {r : Session × Session.Answer} (h : r.2 ≠ .done) : m.after s command r = m.ofLive s.pool := by
  unfold after
  cases e : r.2 with
  | done => exact absurd e h
  | _ => cases command <;> rfl

/-- Nothing is learned or forgotten by a command that works on no handle. -/
theorem after_of_no_target {m : Known} {s : Session} {command : Session.Command}
    {r : Session × Session.Answer} (aside : command.target? = none) :
    m.after s command r = m.ofLive s.pool := by
  cases command
  case setCapacity => cases aside
  case ensureWritable => cases aside
  case write => cases aside
  case setBytes => cases aside
  all_goals rfl

end Known

namespace Pool

variable {p p' : Pool} {m : Known} {id : CoreId} {index : Nat} {bytes : ByteArray}

/-- The buffers in use read as what is known of them. -/
def Holds (p : Pool) (m : Known) : Prop :=
  ∀ id l, (p.core id).lease = some l → ∀ k byte, m id k = some byte → p.byte? id k = some byte

theorem lt_of_byte? {k : Nat} {byte : UInt8} (h : p.byte? id k = some byte) :
    k < (p.core id).capacity := by
  unfold byte? at h
  split at h
  · rename_i l lease
    rw [Core.capacity_eq lease]
    by_contra beyond
    rw [if_neg beyond] at h
    cases h
  · cases h

/-- What is known of a buffer that exists was known before. -/
theorem Holds.ofLive (H : p.Holds m) {k : Nat} {byte : UInt8} (known : m.ofLive p id k = some byte) :
    ∃ l, (p.core id).lease = some l ∧ p.byte? id k = some byte := by
  unfold Known.ofLive at known
  split at known
  · rename_i bound
    obtain ⟨l, lease⟩ := Option.isSome_iff_exists.1 bound
    exact ⟨l, lease, H id l lease k byte known⟩
  · cases known

/-- The buffers that stay in use read as before. -/
theorem Holds.same (H : p.Holds m)
    (bytes : ∀ i l l', (p.core i).lease = some l → (p'.core i).lease = some l' →
      ∀ k, p'.byte? i k = p.byte? i k) : p'.Holds (m.ofLive p) := by
  intro i l' lease' k byte known
  obtain ⟨l, lease, read⟩ := H.ofLive known
  rw [bytes i l l' lease lease', read]

theorem Holds.unaffected (H : p.Holds m) (same : p.Unaffected p') : p'.Holds (m.ofLive p) :=
  H.same fun i _ _ _ _ k => same.byte? i k

/-- An operation on one core that keeps its bytes, or gives it a lease, or takes it away. -/
theorem Holds.frame (H : p.Holds m) (frame : p.Frame id p')
    (bytes : ∀ l l', (p.core id).lease = some l → (p'.core id).lease = some l' →
      ∀ k, p'.byte? id k = p.byte? id k) : p'.Holds (m.ofLive p) := by
  apply H.same
  intro i l l' lease lease' k
  by_cases same : i = id
  · subst same
    exact bytes l l' lease lease' k
  · exact frame.bytes i same k

theorem Holds.uses (H : p.Holds m) (u : p.Uses id p') (bytes : ∀ k, p'.byte? id k = p.byte? id k) :
    p'.Holds (m.ofLive p) :=
  H.frame u.frame fun _ _ _ _ => bytes

theorem Holds.resizes (H : p.Holds m) {n : Nat} (r : p.Resizes id n p') :
    p'.Holds ((m.ofLive p).below id (min (p.core id).capacity n)) := by
  intro i l' lease' k byte known
  unfold Known.below at known
  split at known
  · cases known
  · rename_i inside
    obtain ⟨l, lease, read⟩ := H.ofLive known
    by_cases same : i = id
    · subst same
      have inside := Nat.lt_min.1 (Nat.lt_of_not_le fun beyond => inside ⟨rfl, beyond⟩)
      rw [r.bytes k inside.1 inside.2, read]
    · rw [r.frame.bytes i same, read]

theorem Holds.puts (H : p.Holds m) (w : p.Puts id index bytes p') :
    p'.Holds (((m.ofLive p).below id (min (p.core id).capacity (p'.core id).capacity)).put id index
      bytes) := by
  intro i l' lease' k byte known
  unfold Known.put at known
  split at known
  · rename_i hit
    obtain ⟨rfl, low, high⟩ := hit
    rw [w.put k low high, known]
  · rename_i out
    unfold Known.below at known
    split at known
    · cases known
    · rename_i inside
      obtain ⟨l, lease, read⟩ := H.ofLive known
      by_cases same : i = id
      · subst same
        have inside := Nat.lt_min.1 (Nat.lt_of_not_le fun beyond => inside ⟨rfl, beyond⟩)
        rw [w.kept k inside.1 inside.2 fun range => out ⟨rfl, range⟩, read]
      · rw [w.uses.frame.bytes i same, read]

/-- Writing without a change of capacity cuts nothing off. -/
theorem Holds.puts_same (H : p.Holds m) (w : p.Puts id index bytes p')
    (core : p'.core id = p.core id) : p'.Holds ((m.ofLive p).put id index bytes) := by
  intro i l' lease' k byte known
  apply H.puts w i l' lease' k byte
  unfold Known.put at known ⊢
  split at known
  · rename_i hit
    rw [if_pos hit]
    exact known
  · rename_i out
    rw [if_neg out, Known.below, if_neg]
    · exact known
    · intro outcome
      obtain ⟨rfl, beyond⟩ := outcome
      obtain ⟨l, lease, read⟩ := H.ofLive known
      have := lt_of_byte? read
      rw [core] at beyond
      omega

end Pool

end BufferPool
