import BufferPool.Proofs.Session.Release

/-!
# Commands that spare a stream

The bytes that are written to a buffer and read from it form a stream, as long as nobody gives the buffer up,
sets its cursors, cuts off what is written, or writes over it (`Session.sparesStream`). Whatever else the
commands do, to this buffer, its views, and all others, its handle stays, and so do the bytes written to it.
-/

namespace BufferPool

open Checked

namespace Pool

variable {p : Pool} {id : CoreId} {bytes : List UInt8}

/-- A core starts with the given bytes. -/
def StartsWith (p : Pool) (id : CoreId) (bytes : List UInt8) : Prop :=
  ∀ k < bytes.length, p.byte? id k = bytes[k]?

/-- What is read from inside these bytes is a part of them. -/
theorem StartsWith.toList_eq (S : p.StartsWith id bytes) {data : ByteArray} {start length : Nat}
    (size : data.size = length) (read : ∀ k < length, data.data[k]? = p.byte? id (start + k))
    (inside : start + length ≤ bytes.length) : data.data.toList = (bytes.drop start).take length := by
  apply List.ext_getElem?
  intro k
  rw [Array.getElem?_toList, List.getElem?_take, List.getElem?_drop]
  by_cases within : k < length
  · rw [if_pos within, read k within, S (start + k) (by omega)]
  · rw [if_neg within]
    apply Array.getElem?_eq_none
    change data.size ≤ k
    omega

end Pool

namespace Known

variable {m : Known} {id i : CoreId} {n k index : Nat} {bytes : ByteArray}

/-- Of one buffer, the first bytes. -/
def ofBytes (id : CoreId) (bytes : List UInt8) : Known := fun i k => if i = id then bytes[k]? else none

theorem ofBytes_self {bytes : List UInt8} : ofBytes id bytes id k = bytes[k]? := if_pos rfl

theorem below_of_ne (ne : i ≠ id) : m.below id n i k = m i k :=
  if_neg fun cut => ne cut.1

theorem below_of_lt (less : k < n) : m.below id n i k = m i k :=
  if_neg fun cut => by omega

theorem put_of_ne (ne : i ≠ id) : m.put id index bytes i k = m i k :=
  if_neg fun hit => ne hit.1

theorem put_of_lt (less : k < index) : m.put id index bytes i k = m i k :=
  if_neg fun hit => by omega

theorem put_of_mem (least : index ≤ k) (below : k < index + bytes.size) :
    m.put id index bytes id k = bytes.data[k - index]? :=
  if_pos ⟨rfl, least, below⟩

theorem ofLive_of_bound {p : Pool} {l : Lease} (lease : (p.core id).lease = some l) :
    m.ofLive p id k = m id k :=
  if_pos (Core.isBound_of_lease lease)

end Known

namespace Pool

variable {p : Pool} {id : CoreId} {bytes : List UInt8}

theorem StartsWith.holds (S : p.StartsWith id bytes) : p.Holds (.ofBytes id bytes) := by
  intro i l _ k byte known
  unfold Known.ofBytes at known
  split at known
  · rename_i same
    subst same
    have inside : k < bytes.length := (List.getElem?_eq_some_iff.1 known).1
    rw [S k inside, known]
  · cases known

/-- What is known of a core in use tells how it starts. -/
theorem Holds.startsWith {m : Known} (H : p.Holds m) {l : Lease} (lease : (p.core id).lease = some l)
    (known : ∀ k < bytes.length, m id k = bytes[k]?) : p.StartsWith id bytes := by
  intro k inside
  have byte := List.getElem?_eq_getElem inside
  rw [byte]
  exact H id l lease k _ ((known k inside).trans byte)

end Pool

namespace Session

variable {s s' : Session} {key other : Nat} {id : CoreId} {b : Buffer} {command : Command}

/-- Whether there is a handle under a number, on a given core. -/
def isOn (s : Session) (key : Nat) (id : CoreId) : Bool := (s.handles.get? key).any (Handle.uses id)

/-- Whether a command leaves the stream of a buffer to itself: the buffer is not given up, its cursors are not
set, what is written is not cut off, and no other handle writes to its core. -/
def sparesStream (s : Session) (key : Nat) (id : CoreId) : Command → Bool
  | .drop other => other != key
  | .dropRange first stop step => !(first ≤ key && key < stop && (key - first) % max step 1 == 0)
  | .setIndex other _ _ => other != key
  | .setCapacity other capacity => other != key || (s.pool.core id).writer ≤ capacity
  | .write other _ => other == key || !s.isOn other id
  | .setBytes other _ _ => !s.isOn other id
  | _ => true

theorem core_ne_of_isOn (off : s.isOn other id = false) {h : Handle} (found : s.handles.get? other = some h)
    {i : CoreId} (on : h.core? = some i) : id ≠ i := by
  rintro rfl
  rw [isOn, found, Option.any_some, Handle.uses_iff.2 on] at off
  cases off

/-- Another buffer has another core. -/
theorem Wf.core_ne (W : s.Wf) (found : s.handles.get? key = some (.buffer b)) (ne : other ≠ key) {b' : Buffer}
    (found' : s.handles.get? other = some (.buffer b')) : b.core ≠ b'.core := by
  intro same
  apply ne
  apply W.solo other key b' found'
  rw [found, show b = b' from congrArg Buffer.mk same]

/-! ## The handle stays -/

theorem dropHandle_get? (ne : other ≠ key) (h : Handle) :
    (s.dropHandle other h).Gives fun s' => s'.handles.get? key = s.handles.get? key := by
  intro s' e
  rw [handles_dropHandle e, Registry.get?_erase_ne ne.symm]

theorem dropAll_get? {keys : List Nat} (spared : key ∉ keys) :
    (s.dropAll keys).Gives fun r => r.1.handles.get? key = s.handles.get? key := by
  induction keys generalizing s with
  | nil => exact gives_ok.2 rfl
  | cons first rest ih =>
    have ne : first ≠ key := fun same => spared (same ▸ List.mem_cons_self)
    have later : key ∉ rest := fun mem => spared (List.mem_cons_of_mem _ mem)
    unfold dropAll
    split
    · exact ih later
    · refine (dropHandle_get? ne _).bind fun s₁ dropped => (ih later).bind ?_
      intro r others
      exact gives_pure.2 (others.trans dropped)

/-- A command that gives handles up and spares a stream gives up others. -/
theorem run_get? (gives : command.givesUp = true) (spares : s.sparesStream key id command = true) :
    (s.run command).Gives fun r => r.1.handles.get? key = s.handles.get? key := by
  cases command
  case drop other =>
    have ne : other ≠ key := by simpa [sparesStream] using spares
    rw [run, drop]
    split
    · exact gives_pure.2 rfl
    · exact (dropHandle_get? ne _).bind fun s' same => gives_pure.2 same
  case dropRange first stop step =>
    rw [run, dropRange]
    refine (dropAll_get? fun mem => ?_).bind fun r same => gives_pure.2 same
    have inRange := (List.mem_filter.1 mem).2
    simp only [sparesStream, inRange] at spares
    cases spares
  all_goals cases gives

theorem step_get? (gives : command.givesUp = true) (spares : s.sparesStream key id command = true) :
    (s.step command).Gives fun r => r.1.handles.get? key = s.handles.get? key := by
  refine (run_get? gives spares).bind fun r same => gives_pure.2 ?_
  rw [handles_settle]
  exact same

/-! ## What is written stays known -/

/-- A command that spares a stream teaches and takes away nothing below the writer, unless it appends. -/
theorem known_after_spared (W : s.Wf) (found : s.handles.get? key = some (.buffer b))
    (spares : s.sparesStream key b.core command = true) {r : Session × Answer}
    (other : ∀ bytes, command = .write key bytes → r.2 ≠ .done) (m : Known) {k : Nat}
    (below : k < (s.pool.core b.core).writer) (room : k < b.capacity r.1.pool) :
    m.after s command r b.core k = m b.core k := by
  obtain ⟨l, lease, -⟩ := W.core_of_get? found rfl
  have live : m.ofLive s.pool b.core k = m b.core k := Known.ofLive_of_bound lease
  have inside : k < b.capacity s.pool := by
    rw [Buffer.capacity_eq lease]
    exact Nat.lt_of_lt_of_le below (W.pool.cores _ l lease).inside
  obtain ⟨s', answer⟩ := r
  by_cases done : answer = .done
  swap
  · rw [Known.after_of_ne_done done, live]
  subst done
  -- Four commands make a difference, each by a buffer or a view, and then on another core or further up.
  cases command
  case setCapacity key' n =>
    simp only [Known.after]
    rcases found' : s.handles.get? key' with _ | (b' | v | id | ids) <;> try exact live
    by_cases same : key' = key
    · subst same
      cases found.symm.trans found'
      have kept : (s.pool.core b.core).writer ≤ n := by simpa [sparesStream] using spares
      exact (Known.below_of_lt (Nat.lt_min.2 ⟨inside, by omega⟩)).trans live
    · exact (Known.below_of_ne (W.core_ne found same found')).trans live
  case ensureWritable key' additional =>
    simp only [Known.after]
    rcases found' : s.handles.get? key' with _ | (b' | v | id | ids) <;> try exact live
    by_cases same : key' = key
    · subst same
      cases found.symm.trans found'
      exact (Known.below_of_lt (Nat.lt_min.2 ⟨inside, room⟩)).trans live
    · exact (Known.below_of_ne (W.core_ne found same found')).trans live
  case write key' bytes =>
    have ne : key' ≠ key := fun same => other bytes (same ▸ rfl) rfl
    have off : s.isOn key' b.core = false := by simpa [sparesStream, ne] using spares
    simp only [Known.after]
    rcases found' : s.handles.get? key' with _ | (b' | v | id | ids) <;> try exact live
    · have apart := core_ne_of_isOn off found' rfl
      exact (Known.put_of_ne apart).trans ((Known.below_of_ne apart).trans live)
    · exact (Known.put_of_ne (core_ne_of_isOn off found' rfl)).trans live
  case setBytes key' index bytes =>
    have off : s.isOn key' b.core = false := by simpa [sparesStream] using spares
    simp only [Known.after]
    rcases found' : s.handles.get? key' with _ | (b' | v | id | ids) <;> try exact live
    · exact (Known.put_of_ne (core_ne_of_isOn off found' rfl)).trans live
    · exact (Known.put_of_ne (core_ne_of_isOn off found' rfl)).trans live
  all_goals exact live

/-- Appending teaches the bytes that are appended. -/
theorem known_after_write (W : s.Wf) (found : s.handles.get? key = some (.buffer b)) (bytes : ByteArray)
    (m : Known) (k : Nat) (room : (s.pool.core b.core).writer ≤ b.capacity s'.pool) :
    (k < (s.pool.core b.core).writer → m.after s (.write key bytes) (s', .done) b.core k = m b.core k) ∧
    ((s.pool.core b.core).writer ≤ k → k < (s.pool.core b.core).writer + bytes.size →
      m.after s (.write key bytes) (s', .done) b.core k =
        bytes.data[k - (s.pool.core b.core).writer]?) := by
  obtain ⟨l, lease, -⟩ := W.core_of_get? found rfl
  have inside : (s.pool.core b.core).writer ≤ b.capacity s.pool := by
    rw [Buffer.capacity_eq lease]
    exact (W.pool.cores _ l lease).inside
  simp only [Known.after, found]
  constructor
  · intro below
    rw [Known.put_of_lt below, Known.below_of_lt (by omega), Known.ofLive_of_bound lease]
  · exact Known.put_of_mem

end Session

end BufferPool
