import BufferPool.Proofs.Session.Spared

/-!
# The stream of a buffer

What is read from a buffer, followed by what is still to be read, is what was written to it, in this order.
This is kept by every command that spares the stream (`Session.Streaming`), whatever becomes of the lease of
the buffer on the way, so it holds from the request for the buffer on. A command that is refused adds nothing on
either side, and bytes are refused for one of two reasons: the ceiling, or a want of memory where the buffer has
to grow (`Session.Appends`).
-/

namespace BufferPool

namespace Session

variable {s s' : Session} {key length most : Nat} {b : Buffer} {command : Command} {answer : Answer}
  {taken written : List UInt8}

/-! ## What a log says of the stream -/

/-- The bytes that an entry of a log says were read from the buffer under a number. -/
def entryRead (key : Nat) : Command × Answer → List UInt8
  | (.read other _, .bytes data) => if other = key then data.data.toList else []
  | _ => []

/-- The bytes that an entry of a log says were written to the buffer under a number. -/
def entryWritten (key : Nat) : Command × Answer → List UInt8
  | (.write other bytes, .done) => if other = key then bytes.data.toList else []
  | _ => []

/-- All bytes that were read, in order. -/
def readBy (key : Nat) (log : List (Command × Answer)) : List UInt8 := log.flatMap (entryRead key)

/-- All bytes that were written, in order. -/
def writtenBy (key : Nat) (log : List (Command × Answer)) : List UInt8 := log.flatMap (entryWritten key)

theorem entryRead_eq_nil (other : ∀ n data, command = .read key n → answer ≠ .bytes data) :
    entryRead key (command, answer) = [] := by
  unfold entryRead
  split
  · rename_i other' n data e
    cases e
    exact if_neg fun same => other n data (congrArg (Command.read · n) same) rfl
  · rfl

theorem entryWritten_eq_nil (other : ∀ bytes, command = .write key bytes → answer ≠ .done) :
    entryWritten key (command, answer) = [] := by
  unfold entryWritten
  split
  · rename_i other' bytes e
    cases e
    exact if_neg fun same => other bytes (congrArg (Command.write · bytes) same) rfl
  · rfl

theorem entryRead_self {n : Nat} {data : ByteArray} :
    entryRead key (.read key n, .bytes data) = data.data.toList := if_pos rfl

theorem entryWritten_self {bytes : ByteArray} :
    entryWritten key (.write key bytes, .done) = bytes.data.toList := if_pos rfl

/-- If bytes are read from a buffer, they are as many as were asked for, from its reader on. -/
def ReadsOn (s : Session) (key : Nat) (b : Buffer) (command : Command) (answer : Answer) : Prop :=
  ∀ n data, command = .read key n → answer = .bytes data →
    data.size = n ∧ ∀ k < n, data.data[k]? = s.pool.byte? b.core ((s.pool.core b.core).reader + k)

theorem step_reads (W : s.Wf) (found : s.handles.get? key = some (.buffer b)) (command : Command) :
    (s.step command).Gives fun r => s.ReadsOn key b command r.2 := by
  rintro r step n data rfl answered
  obtain ⟨l, lease, -⟩ := W.core_of_get? found rfl
  obtain ⟨⟨p, answer⟩, e, outcome⟩ := Buffer.read_yields W.pool lease n
  have reads : s.step (.read key n) = .ok ((s.withPool p).settle, .ofBytes answer) :=
    step_onEither rfl found (by rw [e]; rfl)
  cases reads.symm.trans step
  rcases outcome with ⟨refusal, refused⟩ | ⟨⟨data', rfl, size, read⟩, -⟩
  · cases refused
    cases answered
  · cases answered
    exact ⟨size, read⟩

/-- Of the commands that spare a stream only reading and writing move its cursors. -/
theorem cursors_after_spared (spares : s.sparesStream key b.core command = true)
    (ordered : (s.pool.core b.core).reader ≤ (s.pool.core b.core).writer)
    (reads : s.ReadsOn key b command answer) :
    (s.pool.core b.core).cursors.after command key answer =
      ⟨(s.pool.core b.core).reader + (entryRead key (command, answer)).length,
        (s.pool.core b.core).writer + (entryWritten key (command, answer)).length⟩ := by
  cases command
  case setCapacity other n =>
    by_cases same : other = key
    · subst same
      have kept : (s.pool.core b.core).writer ≤ n := by simpa [sparesStream] using spares
      rw [Cursors.after_of_target rfl]
      cases answer
      case done => exact congrArg₂ Cursors.mk (Nat.min_eq_left (ordered.trans kept)) (Nat.min_eq_left kept)
      all_goals rfl
    · exact Cursors.after_of_ne rfl (Ne.symm same)
  case setIndex other reader writer =>
    have ne : other ≠ key := by simpa [sparesStream] using spares
    exact Cursors.after_of_ne rfl ne.symm
  case write other bytes =>
    by_cases same : other = key
    · subst same
      rw [Cursors.after_of_target rfl]
      cases answer
      case done =>
        rw [entryWritten_self]
        rfl
      all_goals rfl
    · rw [Cursors.after_of_ne rfl (Ne.symm same),
        entryWritten_eq_nil fun _ isWrite => absurd (by cases isWrite; rfl) same]
      rfl
  case read other n =>
    by_cases same : other = key
    · subst same
      rw [Cursors.after_of_target rfl]
      cases answer
      case bytes data =>
        rw [entryRead_self, show data.data.toList.length = n from (reads n data rfl rfl).1]
        rfl
      all_goals rfl
    · rw [Cursors.after_of_ne rfl (Ne.symm same),
        entryRead_eq_nil fun _ _ isRead => absurd (by cases isRead; rfl) same]
      rfl
  all_goals exact Cursors.after_of_moved_eq rfl

/-! ## The invariant -/

/-- A buffer from which these bytes were taken, the first of those that were written to it. -/
structure Streaming (s : Session) (key : Nat) (b : Buffer) (most : Nat) (taken written : List UInt8) :
    Prop where
  sound : s.Sound
  found : s.handles.get? key = some (.buffer b)
  ceiling : (s.pool.core b.core).maxCapacity = most
  reader : (s.pool.core b.core).reader = taken.length
  writer : (s.pool.core b.core).writer = written.length
  first : taken = written.take taken.length
  starts : s.pool.StartsWith b.core written

/-- The bytes of a buffer between its cursors. -/
theorem step_copyReadable (W : s.Wf) (found : s.handles.get? key = some (.buffer b)) :
    (s.step (.copyReadable key)).Yields fun r => ∃ data, r.2 = .bytes data ∧
      data.size = (s.pool.core b.core).writer - (s.pool.core b.core).reader ∧
        ∀ k < (s.pool.core b.core).writer - (s.pool.core b.core).reader,
          data.data[k]? = s.pool.byte? b.core ((s.pool.core b.core).reader + k) := by
  obtain ⟨l, lease, -⟩ := W.core_of_get? found rfl
  obtain ⟨answer, e, data, rfl, size, read⟩ := Buffer.copyReadable_yields W.pool lease
  exact ⟨_, step_onEither rfl found (by rw [e]; rfl), data, rfl, size, read⟩

/-- The bytes that are written stay, and new ones come behind them. -/
theorem startsWith_after (W : s.Wf) (found : s.handles.get? key = some (.buffer b))
    (starts : s.pool.StartsWith b.core written) (writer : (s.pool.core b.core).writer = written.length)
    (spares : s.sparesStream key b.core command = true) {r : Session × Answer}
    (holds : ∀ m, s.pool.Holds m → r.1.pool.Holds (m.after s command r)) {l : Lease}
    (lease : (r.1.pool.core b.core).lease = some l)
    (room : (written ++ entryWritten key (command, r.2)).length ≤ l.length) :
    r.1.pool.StartsWith b.core (written ++ entryWritten key (command, r.2)) := by
  have capacity : b.capacity r.1.pool = l.length := Buffer.capacity_eq lease
  refine (holds _ starts.holds).startsWith lease fun k inside => ?_
  by_cases appends : ∃ bytes, command = .write key bytes ∧ r.2 = .done
  · obtain ⟨s', answer⟩ := r
    obtain ⟨bytes, rfl, rfl⟩ := appends
    rw [entryWritten_self] at inside room ⊢
    have size : bytes.data.toList.length = bytes.size := rfl
    rw [List.length_append, size] at inside room
    have reached : (s.pool.core b.core).writer ≤ b.capacity s'.pool := by
      rw [capacity, writer]
      omega
    obtain ⟨before, behind⟩ := known_after_write W found bytes (.ofBytes b.core written) k reached
    rcases Nat.lt_or_ge k written.length with old | new
    · rw [before (by omega), Known.ofBytes_self, List.getElem?_append_left old]
    · rw [behind (by omega) (by omega), writer, List.getElem?_append_right new, Array.getElem?_toList]
  · have other : ∀ bytes, command = .write key bytes → r.2 ≠ .done :=
      fun bytes isWrite done => appends ⟨bytes, isWrite, done⟩
    rw [entryWritten_eq_nil other, List.append_nil] at inside room ⊢
    rw [known_after_spared W found spares other _ (by omega) (by omega), Known.ofBytes_self]

/-- The bytes that are taken go on where the reader was. -/
theorem first_after (starts : s.pool.StartsWith b.core written) (first : taken = written.take taken.length)
    (reader : (s.pool.core b.core).reader = taken.length) (front : taken.length ≤ written.length)
    (reads : s.ReadsOn key b command answer)
    (ordered : taken.length + (entryRead key (command, answer)).length ≤
      written.length + (entryWritten key (command, answer)).length) :
    taken ++ entryRead key (command, answer) = (written ++ entryWritten key (command, answer)).take
      (taken ++ entryRead key (command, answer)).length := by
  by_cases takes : ∃ n data, command = .read key n ∧ answer = .bytes data
  · obtain ⟨n, data, rfl, rfl⟩ := takes
    obtain ⟨size, read⟩ := reads n data rfl rfl
    have length : data.data.toList.length = n := size
    have none : entryWritten key (.read key n, .bytes data) = [] := rfl
    rw [reader] at read
    rw [entryRead_self, none, length] at ordered
    have part := starts.toList_eq size read ordered
    rw [entryRead_self, none, List.append_nil, List.length_append, length, List.take_add, ← first, ← part]
  · rw [entryRead_eq_nil fun n data isRead bytes => takes ⟨n, data, isRead, bytes⟩, List.append_nil,
      List.take_append_of_le_length front]
    exact first

/-- A command that spares the stream goes on with it. -/
theorem Streaming.step (S : s.Streaming key b most taken written) (isPublic : command.isPublic = true)
    (spares : s.sparesStream key b.core command = true) :
    (s.step command).Yields fun r => r.1.Streaming key b most (taken ++ entryRead key (command, r.2))
      (written ++ entryWritten key (command, r.2)) := by
  have W := S.sound.wf
  obtain ⟨l, lease, -⟩ := W.core_of_get? S.found rfl
  have ordered := (W.pool.cores _ l lease).ordered
  obtain ⟨⟨s', answer⟩, e, effect⟩ := step_yields S.sound command isPublic
  have reads : s.ReadsOn key b command answer := step_reads W S.found command _ e
  obtain ⟨found, moved⟩ : s'.handles.get? key = some (.buffer b) ∧
      (s'.pool.core b.core).cursors = (s.pool.core b.core).cursors.after command key answer := by
    rcases effect.moves.buffer key b S.found with ⟨gives, gone⟩ | here
    · rw [step_get? gives spares _ e, S.found] at gone
      cases gone
    · exact here
  rw [cursors_after_spared spares ordered reads, S.reader, S.writer] at moved
  have reader : (s'.pool.core b.core).reader = _ := congrArg Cursors.reader moved
  have writer : (s'.pool.core b.core).writer = _ := congrArg Cursors.writer moved
  obtain ⟨l', lease', -⟩ := effect.sound.wf.core_of_get? found rfl
  have fits := effect.sound.wf.pool.cores _ l' lease'
  have ordered' := fits.ordered
  have inside' := fits.inside
  simp only [reader, writer] at ordered' inside'
  rw [S.reader, S.writer] at ordered
  exact ⟨_, e,
    { sound := effect.sound
      found := found
      ceiling := (effect.ceilings _ l l' lease lease').trans S.ceiling
      reader := by rw [reader, List.length_append]
      writer := by rw [writer, List.length_append]
      first := first_after S.starts S.first S.reader ordered reads ordered'
      starts := startsWith_after W S.found S.starts S.writer spares effect.holds lease'
        (by rw [List.length_append]; exact inside') }⟩

/-! ## The beginning and the run -/

/-- A buffer that is handed out is empty. -/
theorem makeBuffer_gives (W : s.Wf) (key capacity most : Nat) :
    (s.makeBuffer key capacity most).Gives fun r => r.2 = .done →
      ∃ b l, r.1.handles.get? key = some (.buffer b) ∧ r.1.pool.core b.core = ⟨some l, 0, 0, most, 1⟩ := by
  unfold makeBuffer
  split
  · exact Checked.gives_pure.2 nofun
  split
  · exact Checked.gives_pure.2 nofun
  · refine (Pool.allocate_yields W.pool capacity most).gives.bind ?_
    intro ⟨p, answer⟩ outcome
    rcases outcome with ⟨refusal, rfl, -⟩ | ⟨id, l, rfl, -, -, core, -⟩
    · exact Checked.gives_pure.2 nofun
    · exact Checked.gives_pure.2 fun _ => ⟨⟨id⟩, l, Registry.get?_insert_self, core⟩

theorem step_allocate (S : s.Sound) (key capacity most : Nat) :
    (s.step (.allocate key capacity most)).Yields fun r => r.2 = .done →
      ∃ b, r.1.Streaming key b most [] [] := by
  have made : (s.step (.allocate key capacity most)).Gives fun r => r.2 = .done →
      ∃ b l, r.1.handles.get? key = some (.buffer b) ∧ r.1.pool.core b.core = ⟨some l, 0, 0, most, 1⟩ := by
    refine (makeBuffer_gives S.wf key capacity most).bind ?_
    intro ⟨s', answer⟩ made
    refine Checked.gives_pure.2 fun done => ?_
    obtain ⟨b, l, found, core⟩ := made done
    exact ⟨b, l, by rw [handles_settle]; exact found, (settle_pool s' b.core).1.trans core⟩
  apply ((step_yields S (.allocate key capacity most) rfl).and_gives made).mono
  intro r ⟨effect, made⟩ done
  obtain ⟨b, l, found, core⟩ := made done
  exact ⟨b,
    { sound := effect.sound
      found := found
      ceiling := by rw [core]
      reader := by rw [core]; rfl
      writer := by rw [core]; rfl
      first := rfl
      starts := nofun }⟩

/-- Whether commands, one after the other, spare the stream of a buffer. -/
def keepsStream (s : Session) (key : Nat) (id : CoreId) : (commands : List Command) → Bool
  | [] => true
  | command :: rest => command.isPublic && s.sparesStream key id command &&
    match s.step command with
    | .ok (s', _) => s'.keepsStream key id rest
    | .error _ => true

theorem Streaming.transcript (S : s.Streaming key b most taken written) (commands : List Command)
    (keeps : s.keepsStream key b.core commands = true) :
    (s.transcript commands).Yields fun r =>
      r.1.Streaming key b most (taken ++ readBy key r.2) (written ++ writtenBy key r.2) := by
  induction commands generalizing s taken written with
  | nil =>
    refine Checked.yields_ok.2 ?_
    rw [readBy, writtenBy, List.flatMap_nil, List.flatMap_nil, List.append_nil, List.append_nil]
    exact S
  | cons command rest ih =>
    rw [keepsStream, Bool.and_eq_true, Bool.and_eq_true] at keeps
    obtain ⟨⟨isPublic, spares⟩, later⟩ := keeps
    obtain ⟨⟨s', answer⟩, e, S'⟩ := S.step isPublic spares
    rw [e] at later
    refine .bind_ok e ((ih S' later).bind ?_)
    intro ⟨last, log⟩ streaming
    rw [List.append_assoc, List.append_assoc] at streaming
    exact Checked.yields_pure.2 streaming

/-! ## What is refused -/

/-- What becomes of a request to write bytes to a buffer. -/
structure Appends (s : Session) (b : Buffer) (bytes : ByteArray) (r : Session × Answer) : Prop where
  answered : r.2 = .done ∨ ∃ refusal, r.2 = .refused refusal
  exceeded : (∃ requested most, r.2 = .refused (.capacityExceeded requested most)) ↔
    (s.pool.core b.core).maxCapacity < (s.pool.core b.core).writer + bytes.size
  short : ∀ refusal, r.2 = .refused refusal →
    (s.pool.core b.core).writer + bytes.size ≤ (s.pool.core b.core).maxCapacity →
      refusal.isShortage = true ∧ b.capacity s.pool - (s.pool.core b.core).writer < bytes.size

/-- Bytes of any size that a memory can have are appended, or refused because of the ceiling or for want of
memory. -/
theorem step_write (W : s.Wf) (found : s.handles.get? key = some (.buffer b)) {bytes : ByteArray}
    (size : bytes.size < Memory.limit) : (s.step (.write key bytes)).Yields (s.Appends b bytes) := by
  obtain ⟨l, lease, -⟩ := W.core_of_get? found rfl
  obtain ⟨⟨p, answer⟩, e, outcome⟩ := Buffer.write_yields W.pool lease bytes
  refine ⟨_, step_onEither rfl found (by rw [e]; rfl), ?_⟩
  rcases outcome with ⟨refusal, rfl, -, refused⟩ | ⟨rfl, -, -, puts⟩
  · rcases Buffer.ensureWritable_refused W.pool lease size refused with
      ⟨beyond, rfl⟩ | ⟨below, short, more⟩
    · refine ⟨.inr ⟨_, rfl⟩, iff_of_true ⟨_, _, rfl⟩ beyond, fun _ _ below => ?_⟩
      exact absurd beyond (Nat.not_lt.2 below)
    · have within :
          ¬ ∃ requested most, Answer.refused refusal = .refused (.capacityExceeded requested most) := by
        rintro ⟨requested, most, same⟩
        cases same
        cases short
      refine ⟨.inr ⟨_, rfl⟩, iff_of_false within (Nat.not_lt.2 below), fun refusal' same _ => ?_⟩
      cases same
      exact ⟨short, by rw [Buffer.capacity_eq lease]; exact more⟩
  · obtain ⟨l', lease'⟩ := puts.uses.bound
    have reached := puts.inside
    have below := (puts.uses.frame.wf.cores _ l' lease').ceiling
    rw [Core.capacity_eq lease'] at reached
    rw [puts.uses.ceiling] at below
    exact ⟨.inl rfl, iff_of_false nofun (Nat.not_lt.2 (reached.trans below)), nofun⟩

/-! ## The law -/

/-- A buffer after commands that spared its stream, given the log of them: the cursors count what was read and
written, and the bytes between them are those that were written and not read yet. -/
structure Streams (s : Session) (key : Nat) (b : Buffer) (most : Nat) (log : List (Command × Answer)) :
    Prop where
  found : s.handles.get? key = some (.buffer b)
  ceiling : (s.pool.core b.core).maxCapacity = most
  reader : (s.pool.core b.core).reader = (readBy key log).length
  writer : (s.pool.core b.core).writer = (writtenBy key log).length
  conserved : (s.step (.copyReadable key)).Yields fun r =>
    ∃ data, r.2 = .bytes data ∧ readBy key log ++ data.data.toList = writtenBy key log
  appends : ∀ bytes, bytes.size < Memory.limit → (s.step (.write key bytes)).Yields (s.Appends b bytes)

theorem Streaming.streams {log : List (Command × Answer)}
    (S : s.Streaming key b most (readBy key log) (writtenBy key log)) : s.Streams key b most log := by
  have W := S.sound.wf
  obtain ⟨l, lease, -⟩ := W.core_of_get? S.found rfl
  have ordered := (W.pool.cores _ l lease).ordered
  refine ⟨S.found, S.ceiling, S.reader, S.writer, ?_, fun bytes size => step_write W S.found size⟩
  apply (step_copyReadable W S.found).mono
  intro r ⟨data, answered, size, read⟩
  rw [S.reader, S.writer] at ordered size read
  refine ⟨data, answered, ?_⟩
  have rest := S.starts.toList_eq size read (by omega)
  rw [List.take_of_length_le (by rw [List.length_drop])] at rest
  rw [rest]
  calc readBy key log ++ (writtenBy key log).drop (readBy key log).length
    _ = (writtenBy key log).take (readBy key log).length ++ (writtenBy key log).drop (readBy key log).length :=
        congrArg (· ++ _) S.first
    _ = writtenBy key log := List.take_append_drop ..

section

variable {config : PoolConfig} {supply : Supply} {pool : Pool} {earlier : List Command}

/-- A buffer that is handed out at any state is a stream, as long as the commands spare it: what was read from it
and what is still there to be read is what was written to it. It refuses to be written past its ceiling, and
before that only for want of memory. -/
theorem allocated_buffer_streams (created : Pool.createOn supply config = .ok pool)
    (lossless : config.pageSize * 2 ^ config.maxOrder < Word.bound)
    (isPublic : ∀ command ∈ earlier, command.isPublic = true) :
    ((ofPool pool).play earlier).Yields fun s => ∀ key capacity most,
      (s.step (.allocate key capacity most)).Yields fun t => t.2 = .done →
        ∃ b, t.1.handles.get? key = some (.buffer b) ∧
          ∀ later, t.1.keepsStream key b.core later = true →
            (t.1.transcript later).Yields fun r => r.1.Streams key b most r.2 := by
  apply (play_yields (sound_ofPool created lossless) earlier isPublic).mono
  intro s sound key capacity most
  apply (step_allocate sound key capacity most).mono
  intro t streaming done
  obtain ⟨b, S⟩ := streaming done
  refine ⟨b, S.found, fun later keeps => ?_⟩
  apply (S.transcript later keeps).mono
  intro r S'
  exact S'.streams

/-- A buffer that is written, read, resized and refused room, next to another one and under a view that is
read. -/
theorem allocated_buffer_streams_default : ∃ s t,
    (ofPool (.ofConfig {} .full)).play [.buffer 0 100, .write 0 ⟨#[9]⟩] = .ok s ∧
      s.step (.allocate 1 2 20) = .ok t ∧ t.2 = .done ∧
        (t.1.transcript [.write 1 ⟨#[1, 2, 3]⟩, .read 1 2, .write 0 ⟨#[4]⟩, .setCapacity 1 3,
          .duplicate 2 1, .read 2 1, .ensureWritable 1 30, .write 1 ⟨#[5]⟩, .drop 2]).Yields fun r =>
            r.1.Streams 1 ⟨1⟩ 20 r.2 := by
  obtain ⟨s, played, all⟩ := allocated_buffer_streams
    (show Pool.createOn .full {} = .ok (.ofConfig {} .full) from rfl) (by decide)
    (show ∀ command ∈ [.buffer 0 100, .write 0 ⟨#[9]⟩], Command.isPublic command = true by decide)
  have seen : ((ofPool (.ofConfig {} .full)).play [.buffer 0 100, .write 0 ⟨#[9]⟩]).toOption.map (fun s =>
      (s.step (.allocate 1 2 20)).toOption.map fun t => (t.2.isDone, t.1.handles.get? 1,
        t.1.keepsStream 1 1 [.write 1 ⟨#[1, 2, 3]⟩, .read 1 2, .write 0 ⟨#[4]⟩, .setCapacity 1 3,
          .duplicate 2 1, .read 2 1, .ensureWritable 1 30, .write 1 ⟨#[5]⟩, .drop 2])) =
            some (some (true, some (.buffer ⟨1⟩), true)) := by
    decide +kernel
  obtain ⟨t, made, streams⟩ := all 1 2 20
  have told := Checked.eq_of_seen seen played
  have now := Checked.eq_of_seen told made
  rw [Prod.mk.injEq, Prod.mk.injEq] at now
  obtain ⟨done, found, keeps⟩ := now
  have answer := Answer.isDone_iff.1 done
  obtain ⟨b, found', kept⟩ := streams answer
  cases found.symm.trans found'
  exact ⟨s, t, played, made, answer, kept _ keeps⟩

end

end Session

end BufferPool
