import BufferPool.Proofs.Pool.Tally
import BufferPool.Proofs.Session.Run

/-!
# What commands keep

Apart from requests, the commands of the interface do four things to the pool: they change cores that stay
bound or free, give references back, change capacities, and write bytes. What these keep (`Pool.Kept`) is kept
by every such command, and by requests too once the caller has let go of the pool.
-/

namespace BufferPool

open Checked

/-- What stays true of a pool whatever the holders of its cores do. -/
structure Pool.Kept (P : Pool → Prop) : Prop where
  modifyCore : ∀ {p : Pool} (id : CoreId) (f : Core → Core), (∀ c, (f c).isBound = c.isBound) → P p →
    P (p.modifyCore id f)
  release : ∀ {p : Pool} (id : CoreId), P p → (p.release id).Gives P
  setCapacity : ∀ {p : Pool} (id : CoreId) (capacity : Nat), P p →
    (p.setCapacity id capacity).Gives fun r => P r.1
  setBytes : ∀ {p : Pool} (id : CoreId) (index : Nat) (bytes : ByteArray), P p →
    (p.setBytes id index bytes).Gives fun r => P r.1

namespace Pool

variable {P : Pool → Prop} {p : Pool}

theorem Kept.retain (K : Kept P) (h : P p) (id : CoreId) : (p.retain id).Gives P := by
  unfold Pool.retain
  exact .guard fun _ => gives_pure.2 (K.modifyCore id _ (fun _ => rfl) h)

end Pool

namespace Buffer

variable {P : Pool → Prop} {p : Pool} {b : Buffer}

theorem setIndex_kept (K : Pool.Kept P) (h : P p) {reader writer : Nat} :
    P (b.setIndex p reader writer).1 := by
  unfold setIndex
  split
  · exact h
  · exact K.modifyCore _ _ (fun _ => rfl) h

theorem ensureWritable_kept (K : Pool.Kept P) (h : P p) {additional : Nat} :
    (b.ensureWritable p additional).Gives fun r => P r.1 := by
  unfold ensureWritable
  refine .skip fun writable => ?_
  dsimp only
  split
  · exact gives_pure.2 h
  · split
    · exact gives_pure.2 h
    · exact K.setCapacity _ _ h

theorem write_kept (K : Pool.Kept P) (h : P p) {bytes : ByteArray} :
    (b.write p bytes).Gives fun r => P r.1 := by
  unfold write
  refine (ensureWritable_kept K h).bind ?_
  intro ⟨p₁, answer⟩ grown
  cases answer with
  | error refusal => exact gives_pure.2 grown
  | ok =>
    refine (K.setBytes _ _ _ grown).bind ?_
    intro ⟨p₂, answer⟩ written
    cases answer with
    | error refusal => exact gives_pure.2 written
    | ok => exact .skip fun writer => gives_pure.2 (K.modifyCore _ _ (fun _ => rfl) written)

theorem read_kept (K : Pool.Kept P) (h : P p) {length : Nat} : (b.read p length).Gives fun r => P r.1 := by
  unfold read
  refine .skip fun readable => ?_
  split
  · exact gives_pure.2 h
  · refine .skip fun answer => ?_
    cases answer with
    | error refusal => exact gives_pure.2 h
    | ok bytes => exact .skip fun reader => gives_pure.2 (K.modifyCore _ _ (fun _ => rfl) h)

theorem duplicate_kept (K : Pool.Kept P) (h : P p) : (b.duplicate p).Gives fun r => P r.1 :=
  (K.retain h _).bind fun _ kept => gives_pure.2 kept

theorem slice_kept (K : Pool.Kept P) (h : P p) {index length : Nat} :
    (b.slice p index length).Gives fun r => P r.1 := by
  unfold slice
  split
  · exact gives_pure.2 h
  · exact (K.retain h _).bind fun _ kept => gives_pure.2 kept

theorem sliceReadable_kept (K : Pool.Kept P) (h : P p) : (b.sliceReadable p).Gives fun r => P r.1 :=
  .skip fun _ => (K.retain h _).bind fun _ kept => gives_pure.2 kept

end Buffer

namespace View

variable {P : Pool → Prop} {p : Pool} {v : View}

theorem setBytes_kept (K : Pool.Kept P) (h : P p) {index : Nat} {bytes : ByteArray} :
    (v.setBytes p index bytes).Gives fun r => P r.1 := by
  unfold setBytes
  split
  · exact gives_pure.2 h
  · exact .skip fun position => K.setBytes _ _ _ h

theorem write_kept (K : Pool.Kept P) (h : P p) {bytes : ByteArray} :
    (v.write p bytes).Gives fun r => P r.1 := by
  unfold write
  refine (setBytes_kept K h).bind ?_
  intro ⟨p₁, answer⟩ written
  cases answer with
  | error refusal => exact gives_pure.2 written
  | ok => exact .skip fun writer => gives_pure.2 written

theorem duplicate_kept (K : Pool.Kept P) (h : P p) : (v.duplicate p).Gives fun r => P r.1 :=
  (K.retain h _).bind fun _ kept => gives_pure.2 kept

theorem slice_kept (K : Pool.Kept P) (h : P p) {index length : Nat} :
    (v.slice p index length).Gives fun r => P r.1 := by
  unfold slice
  split
  · exact gives_pure.2 h
  · exact (K.retain h _).bind fun _ kept => .skip fun start => gives_pure.2 kept

end View

namespace Session

variable {P : Pool → Prop} {s : Session}

/-- Whether a command asks for new leases. -/
def Command.asks : Command → Bool
  | .buffer .. | .allocate .. | .fill .. => true
  | _ => false

theorem onBuffer_kept (h : P s.pool) {key : Nat} {run : Buffer → Checked (Pool × Answered Unit)}
    (each : ∀ b, (run b).Gives fun r => P r.1) : (s.onBuffer key run).Gives fun r => P r.1.pool := by
  unfold onBuffer
  split
  · exact gives_pure.2 h
  · exact (each _).bind fun r kept => gives_pure.2 kept
  · exact gives_pure.2 h

theorem onEither_kept (h : P s.pool) {key : Nat} {onBuffer : Buffer → Checked (Pool × Answer)}
    {onView : View → Checked (Pool × View × Answer)} (buffer : ∀ b, (onBuffer b).Gives fun r => P r.1)
    (view : ∀ v, (onView v).Gives fun r => P r.1) :
    (s.onEither key onBuffer onView).Gives fun r => P r.1.pool := by
  unfold onEither
  split
  · exact gives_pure.2 h
  · exact (buffer _).bind fun r kept => gives_pure.2 kept
  · exact (view _).bind fun r kept => gives_pure.2 kept
  · exact gives_pure.2 h

theorem makeView_kept (h : P s.pool) {key source : Nat} {ofBuffer : Buffer → Checked (Pool × Answered View)}
    {ofView : View → Option (Checked (Pool × Answered View))}
    (buffer : ∀ b, (ofBuffer b).Gives fun r => P r.1)
    (view : ∀ v made, ofView v = some made → made.Gives fun r => P r.1) :
    (s.makeView key source ofBuffer ofView).Gives fun r => P r.1.pool := by
  unfold makeView
  split
  · exact gives_pure.2 h
  · cases s.handles.get? source with
    | none => exact gives_pure.2 h
    | some handle =>
      cases handle with
      | buffer b =>
        refine (buffer b).bind ?_
        intro ⟨p, answer⟩ kept
        cases answer <;> exact gives_pure.2 kept
      | view v =>
        cases made : ofView v with
        | none =>
          simp only [made]
          exact gives_pure.2 h
        | some made' =>
          simp only [made]
          refine (view v made' made).bind ?_
          intro ⟨p, answer⟩ kept
          cases answer <;> exact gives_pure.2 kept
      | core id => exact gives_pure.2 h
      | subpages ids => exact gives_pure.2 h

theorem granted_kept {made : Checked (Pool × View)} (h : made.Gives fun r => P r.1) :
    (granted made).Gives fun r => P r.1 :=
  h.bind fun _ kept => gives_pure.2 kept

theorem whileAttached_kept (h : P s.pool) {run : Checked (Session × Answer)}
    (kept : run.Gives fun r => P r.1.pool) : (s.whileAttached run).Gives fun r => P r.1.pool := by
  unfold whileAttached
  split
  · exact kept
  · exact gives_ok.2 h

theorem dropHandle_kept (K : Pool.Kept P) (h : P s.pool) {key : Nat} {handle : Handle} :
    (s.dropHandle key handle).Gives fun s' => P s'.pool := by
  unfold dropHandle
  cases handle with
  | buffer b => exact (K.release _ h).bind fun _ kept => gives_pure.2 kept
  | view v => exact (K.release _ h).bind fun _ kept => gives_pure.2 kept
  | core id => exact gives_pure.2 h
  | subpages ids => exact gives_pure.2 h

theorem dropAll_kept (K : Pool.Kept P) (h : P s.pool) (keys : List Nat) :
    (s.dropAll keys).Gives fun r => P r.1.pool := by
  induction keys generalizing s with
  | nil => exact gives_ok.2 h
  | cons key rest ih =>
    unfold dropAll
    split
    · exact ih h
    · refine (dropHandle_kept K h).bind fun s₁ dropped => ?_
      exact (ih dropped).bind fun r kept => gives_pure.2 kept

/-- Without the pool nothing is granted. -/
theorem makeBuffer_kept (h : P s.pool) {key capacity maxCapacity : Nat} (detached : s.attached = false) :
    (s.makeBuffer key capacity maxCapacity).Gives fun r => P r.1.pool := by
  rw [makeBuffer, detached]
  split <;> exact gives_pure.2 h

/-- What the holders of cores keep, a command keeps that grants no lease. -/
theorem run_kept (K : Pool.Kept P) (h : P s.pool) {command : Command} (isPublic : command.isPublic = true)
    (quiet : command.asks = true → s.attached = false) :
    (s.run command).Gives fun r => P r.1.pool := by
  cases command with
  | buffer key capacity => exact makeBuffer_kept h (quiet rfl)
  | allocate key capacity maxCapacity => exact makeBuffer_kept h (quiet rfl)
  | fill key count capacity =>
    rw [run, fill, quiet rfl]
    split <;> exact gives_pure.2 h
  | drop key =>
    rw [run, drop]
    split
    · exact gives_pure.2 h
    · exact (dropHandle_kept K h).bind fun s' kept => gives_pure.2 kept
  | dropRange key stop step => exact (dropAll_kept K h _).bind fun r kept => gives_pure.2 kept
  | detach =>
    rw [run, detach]
    split <;> exact gives_ok.2 h
  | duplicate key source =>
    rw [run]
    refine makeView_kept h (fun b => granted_kept (b.duplicate_kept K h)) fun v made e => ?_
    cases e
    exact granted_kept (v.duplicate_kept K h)
  | slice key source index length =>
    rw [run]
    refine makeView_kept h (fun b => b.slice_kept K h) fun v made e => ?_
    cases e
    exact v.slice_kept K h
  | sliceReadable key source =>
    rw [run]
    refine makeView_kept h (fun b => granted_kept (b.sliceReadable_kept K h)) fun v made e => ?_
    cases e
  | setCapacity key capacity => exact onBuffer_kept h fun b => K.setCapacity _ _ h
  | ensureWritable key additional => exact onBuffer_kept h fun b => b.ensureWritable_kept K h
  | setIndex key reader writer =>
    refine onEither_kept h (fun b => gives_ok.2 (b.setIndex_kept K h)) fun v => ?_
    split <;> exact gives_ok.2 h
  | write key bytes =>
    refine onEither_kept h (fun b => (b.write_kept K h).bind fun r kept => gives_pure.2 kept) fun v => ?_
    refine (v.write_kept K h).bind ?_
    rintro ⟨p, answer⟩ kept
    cases answer <;> exact gives_pure.2 kept
  | setBytes key index bytes =>
    exact onEither_kept h (fun b => (K.setBytes _ _ _ h).bind fun r kept => gives_pure.2 kept)
      fun v => (v.setBytes_kept K h).bind fun r kept => gives_pure.2 kept
  | read key length =>
    refine onEither_kept h (fun b => (b.read_kept K h).bind fun r kept => gives_pure.2 kept) fun v => ?_
    refine .skip fun answer => ?_
    split <;> exact gives_pure.2 h
  | getBytes key index length =>
    exact onEither_kept h (fun b => .skip fun _ => gives_pure.2 h) fun v => .skip fun _ => gives_pure.2 h
  | copyReadable key =>
    exact onEither_kept h (fun b => .skip fun _ => gives_pure.2 h) fun v => .skip fun _ => gives_pure.2 h
  | info key =>
    exact onEither_kept h (fun b => .skip fun _ => gives_pure.2 h) fun v => .skip fun _ => gives_pure.2 h
  | stats => exact whileAttached_kept h (.skip fun _ => gives_pure.2 h)
  | freeSubpages capacity => exact whileAttached_kept h (.skip fun _ => gives_pure.2 h)
  | counters => exact gives_ok.2 h
  | subpages => exact whileAttached_kept h (.skip fun _ => gives_pure.2 h)
  | hold key =>
    rw [run, hold]
    split
    · exact gives_ok.2 h
    · split <;> exact gives_ok.2 h
  | held key =>
    rw [run, held]
    split
    · exact gives_pure.2 h
    · exact .skip fun _ => gives_pure.2 h
    · exact gives_pure.2 h
  | coreNew _ => cases isPublic
  | coreReuse _ _ => cases isPublic
  | coreRetain _ => cases isPublic
  | coreRelease _ => cases isPublic
  | coreReclaim _ => cases isPublic
  | coreSetIndex _ _ _ => cases isPublic
  | coreClamp _ _ => cases isPublic
  | coreBind _ _ _ _ _ _ _ _ => cases isPublic
  | coreSetCapacity _ _ => cases isPublic
  | coreGetBytes _ _ _ => cases isPublic
  | coreSetBytes _ _ _ => cases isPublic
  | coreFastCapacity _ => cases isPublic
  | coreMove _ _ => cases isPublic

end Session

end BufferPool
