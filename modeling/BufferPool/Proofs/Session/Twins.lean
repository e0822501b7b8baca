import BufferPool.Proofs.Session.Balance
import BufferPool.Proofs.Session.Renamed

/-!
# Runs that recycle differently

Of two pools that differ in the room for idle cores, one finds a core waiting where the other one makes a new
core, and nobody can tell: the sessions stay twins (`Session.Twins`), with other cores behind the handles, and
all answers are alike (`Answer.Alike`).
-/

namespace BufferPool

open Checked

variable {R : Likeness} {K L : Set CoreId} {ρ ρ' : CoreId → CoreId}

/-- The figures of a pool without the idle cores. -/
def PoolStats.plain (x : PoolStats) : PoolStats := { x with idleCores := 0 }

/-- The handle on the core that another pool has for its own. -/
def Handle.renamed (ρ : CoreId → CoreId) : Handle → Handle
  | .buffer b => .buffer (b.renamed ρ)
  | .view v => .view (v.renamed ρ)
  | .core id => .core (ρ id)
  | .subpages ids => .subpages ids

theorem Handle.renamed_congr {h : Handle} (same : ∀ id, h.core? = some id → ρ' id = ρ id) :
    h.renamed ρ' = h.renamed ρ := by
  cases h with
  | buffer b => exact congrArg (fun id => Handle.buffer ⟨id⟩) (same b.core rfl)
  | view v => exact congrArg (fun id => Handle.view { v with core := id }) (same v.core rfl)
  | core id => exact congrArg Handle.core (same id rfl)
  | subpages ids => rfl

namespace Session

variable {s s' t t' : Session} {p p' : Pool} {key : Nat}

/-- Two sessions with the same handles on twins. -/
structure Twins (R : Likeness) (K : Set CoreId) (ρ : CoreId → CoreId) (s s' : Session) : Prop where
  pool : s.pool.Twins R K ρ s'.pool
  handles : s'.handles = s.handles.map (Handle.renamed ρ)
  ordered : s.handles.Ordered
  known : ∀ h ∈ s.handles.values, ∀ id, h.core? = some id → id ∈ K
  attached : s'.attached = s.attached
  closed : s'.closed = s.closed

/-- Answers that are equal but for the figures of the idle cores. -/
inductive Answer.Alike : Answer → Answer → Prop where
  | same (answer : Answer) : Answer.Alike answer answer
  | counters {c c' : Counters} (plain : c'.plain = c.plain) : Answer.Alike (.counters c) (.counters c')
  | stats {x x' : PoolStats} (plain : x'.plain = x.plain) : Answer.Alike (.text x.written) (.text x'.written)

/-- Answers that are equal but for the figures of the idle cores, with counters that are tied together. -/
inductive Answer.Like (tied : Counters → Counters → Prop) : Answer → Answer → Prop where
  | same (answer : Answer) : Answer.Like tied answer answer
  | counters {c c' : Counters} (like : tied c c') : Answer.Like tied (.counters c) (.counters c')
  | stats {x x' : PoolStats} (plain : x'.plain = x.plain) : Answer.Like tied (.text x.written) (.text x'.written)

/-- Twins, with answers that are alike. -/
structure Replies (R : Likeness) (r r' : Session × Answer) : Prop where
  twins : ∃ K ρ, Twins R K ρ r.1 r'.1
  answers : r.2.Like R.counters r'.2

theorem Twins.reply (T : s.Twins R K ρ s') (answer : Answer) : Replies R (s, answer) (s', answer) :=
  ⟨⟨K, ρ, T⟩, .same answer⟩

/-- The pools go on as twins, perhaps with more cores. -/
theorem Twins.grow (T : s.Twins R K ρ s') (P : p.Twins R L ρ' p') (more : K ⊆ L) (same : ∀ id ∈ K, ρ' id = ρ id) :
    (s.withPool p).Twins R L ρ' (s'.withPool p') where
  pool := P
  handles := by
    refine T.handles.trans (Registry.map_congr fun h mem => ?_)
    exact (Handle.renamed_congr fun id on => same id (T.known h mem id on)).symm
  ordered := T.ordered
  known h mem id on := more (T.known h mem id on)
  attached := T.attached
  closed := T.closed

theorem Twins.withPool (T : s.Twins R K ρ s') (P : p.Twins R K ρ p') :
    (s.withPool p).Twins R K ρ (s'.withPool p') :=
  T.grow P Set.Subset.rfl fun _ _ => rfl

/-- Both put a handle on a core in use under the same number. -/
theorem Twins.withHandle (T : s.Twins R K ρ s') (key : Nat) (h : Handle)
    (known : ∀ id, h.core? = some id → id ∈ K) :
    (s.withHandle key h).Twins R K ρ (s'.withHandle key (h.renamed ρ)) where
  pool := T.pool
  handles := by
    change s'.handles.insert key _ = (s.handles.insert key h).map _
    rw [T.handles, Registry.insert_map]
  ordered := T.ordered.insert key h
  known k mem := by
    rcases mem_withHandle T.ordered mem with rfl | old
    · exact known
    · exact T.known k old
  attached := T.attached
  closed := T.closed

theorem Twins.get? (T : s.Twins R K ρ s') (key : Nat) :
    s'.handles.get? key = (s.handles.get? key).map (Handle.renamed ρ) := by
  rw [T.handles, Registry.get?_map]

theorem Twins.contains (T : s.Twins R K ρ s') (key : Nat) : s'.handles.contains key = s.handles.contains key := by
  unfold Registry.contains
  rw [T.get?, Option.isSome_map]

theorem Twins.keys (T : s.Twins R K ρ s') : s'.handles.keys = s.handles.keys := by
  rw [T.handles, Registry.keys_map]

/-! ## Commands that make handles -/

/-- A granted request puts a buffer under its number. -/
theorem Twins.withBuffer (T : s.Twins R K ρ s') {id id' : CoreId} (fresh : id ∉ K)
    (P : p.Twins R (insert id K) (Function.update ρ id id') p') (key : Nat) :
    ((s.withPool p).withHandle key (.buffer ⟨id⟩)).Twins R (insert id K) (Function.update ρ id id')
      ((s'.withPool p').withHandle key (.buffer ⟨id'⟩)) := by
  have grown := T.grow P (Set.subset_insert ..) fun i mem =>
    Function.update_of_ne (fun same : i = id => fresh (same ▸ mem)) ..
  have added := grown.withHandle key (.buffer ⟨id⟩) fun i on => by
    cases on
    exact Set.mem_insert ..
  rw [show (Handle.buffer ⟨id⟩).renamed (Function.update ρ id id') = .buffer ⟨id'⟩ by
    rw [Handle.renamed, Buffer.renamed, Function.update_self]] at added
  exact added

theorem Twins.makeBuffer (T : s.Twins R K ρ s') (key capacity maxCapacity : Nat) :
    (s.makeBuffer key capacity maxCapacity).Agrees (s'.makeBuffer key capacity maxCapacity) (Replies R) := by
  unfold Session.makeBuffer
  rw [T.contains, T.attached]
  split
  · exact agrees_pure.2 (T.reply _)
  · split
    · exact agrees_pure.2 (T.reply _)
    · refine (T.pool.allocate capacity maxCapacity).bind ?_
      intro r r' grants
      cases grants with
      | granted fresh twins => exact agrees_pure.2 ((T.withBuffer fresh twins key).reply _)
      | refused twins => exact agrees_pure.2 ((T.withPool twins).reply _)

/-- The configurations differ in the room for idle cores only. -/
theorem Twins.defaultMaxCapacity (T : s.Twins R K ρ s') :
    s'.pool.config.defaultMaxCapacity = s.pool.config.defaultMaxCapacity :=
  T.pool.arena.defaultMaxCapacity

theorem Twins.makeBuffers (T : s.Twins R K ρ s') (key capacity n : Nat) :
    (s.makeBuffers key capacity n).Agrees (s'.makeBuffers key capacity n) fun r r' =>
      (∃ K ρ, Twins R K ρ r.1 r'.1) ∧ r'.2 = r.2 := by
  induction n generalizing s s' K ρ key with
  | zero => exact agrees_ok.2 ⟨⟨K, ρ, T⟩, rfl⟩
  | succ n ih =>
    unfold Session.makeBuffers Pool.allocateDefault
    rw [T.defaultMaxCapacity]
    refine (T.pool.allocate capacity _).bind ?_
    intro r r' grants
    cases grants with
    | refused twins => exact agrees_pure.2 ⟨⟨K, ρ, T.withPool twins⟩, rfl⟩
    | @granted p p' id id' fresh twins =>
      have locator := Buffer.locator?_renamed (b := ⟨id⟩) twins (Set.mem_insert ..)
      rw [Buffer.renamed, Function.update_self] at locator
      dsimp only
      rw [locator]
      refine .step fun locator => (ih (T.withBuffer fresh twins key) (key + 1)).bind ?_
      rintro ⟨t, locators⟩ ⟨t', locators'⟩ ⟨twins, same⟩
      cases same
      exact agrees_pure.2 ⟨twins, rfl⟩

theorem Twins.fill (T : s.Twins R K ρ s') (key n capacity : Nat) :
    (s.fill key n capacity).Agrees (s'.fill key n capacity) (Replies R) := by
  unfold Session.fill
  rw [T.keys, T.attached]
  split
  · exact agrees_pure.2 (T.reply _)
  · split
    · exact agrees_pure.2 (T.reply _)
    · refine (T.makeBuffers key capacity n).bind ?_
      intro ⟨t, answers⟩ ⟨t', answers'⟩ ⟨twins, same⟩
      cases same
      exact agrees_pure.2 ⟨twins, .same _⟩

/-- Both put a view that was made under the same number. -/
theorem Twins.made (T : s.Twins R K ρ s') (key : Nat) {r r' : Pool × Answered View} (h : View.Made R K ρ r r') :
    Agrees (match r with
        | (pool, .error refusal) => pure (s.withPool pool, .refused refusal)
        | (pool, .ok view) => pure ((s.withPool pool).withHandle key (.view view), .done))
      (match r' with
        | (pool, .error refusal) => pure (s'.withPool pool, .refused refusal)
        | (pool, .ok view) => pure ((s'.withPool pool).withHandle key (.view view), .done)) (Replies R) := by
  obtain ⟨q, answer⟩ := r
  obtain ⟨q', answer'⟩ := r'
  obtain ⟨twins, renamed, known⟩ := h
  cases renamed
  cases answer with
  | error refusal => exact agrees_pure.2 ((T.withPool twins).reply _)
  | ok w =>
    refine agrees_pure.2 (((T.withPool twins).withHandle key (.view w) fun id on => ?_).reply _)
    cases on
    exact known w rfl

/-- A view that is always made. -/
theorem granted_alike {made made' : Checked (Pool × View)} (h : made.Agrees made' fun r r' =>
    Pool.Twins R K ρ r.1 r'.1 ∧ r'.2 = r.2.renamed ρ ∧ r.2.core ∈ K) :
    (granted made).Agrees (granted made') (View.Made R K ρ) := by
  refine h.bind ?_
  intro ⟨q, w⟩ ⟨q', w'⟩ ⟨twins, renamed, known⟩
  cases renamed
  refine agrees_pure.2 ⟨twins, rfl, ?_⟩
  intro v same
  cases same
  exact known

theorem Twins.makeView (T : s.Twins R K ρ s') {key source : Nat}
    {ofBuffer ofBuffer' : Buffer → Checked (Pool × Answered View)}
    {ofView ofView' : View → Option (Checked (Pool × Answered View))}
    (buffer : ∀ b : Buffer, b.core ∈ K → (ofBuffer b).Agrees (ofBuffer' (b.renamed ρ)) (View.Made R K ρ))
    (view : ∀ v : View, v.core ∈ K → ofView v = none ∧ ofView' (v.renamed ρ) = none ∨
      ∃ made made', ofView v = some made ∧ ofView' (v.renamed ρ) = some made' ∧
        made.Agrees made' (View.Made R K ρ)) :
    (s.makeView key source ofBuffer ofView).Agrees (s'.makeView key source ofBuffer' ofView') (Replies R) := by
  unfold Session.makeView
  rw [T.contains, T.get? source]
  split
  · exact agrees_pure.2 (T.reply _)
  · cases found : s.handles.get? source with
    | none => exact agrees_pure.2 (T.reply _)
    | some h =>
      have known := T.known h (Registry.mem_values found)
      cases h with
      | buffer b => exact (buffer b (known _ rfl)).bind fun r r' made => T.made key made
      | view v =>
        rcases view v (known _ rfl) with ⟨none, none'⟩ | ⟨made, made', some, some', alike⟩
        · simp only [Option.map_some, Handle.renamed, none, none']
          exact agrees_pure.2 (T.reply _)
        · simp only [Option.map_some, Handle.renamed, some, some']
          exact alike.bind fun r r' made => T.made key made
      | core id => exact agrees_pure.2 (T.reply _)
      | subpages ids => exact agrees_pure.2 (T.reply _)

theorem Twins.subpages (T : s.Twins R K ρ s') : s'.pool.arena.subpages = s.pool.arena.subpages :=
  T.pool.arena.subpages

theorem Twins.freeSubpages (T : s.Twins R K ρ s') (capacity : Nat) :
    s'.pool.arena.freeSubpages capacity = s.pool.arena.freeSubpages capacity :=
  T.pool.arena.freeSubpages capacity

theorem Twins.hold (T : s.Twins R K ρ s') (key : Nat) : Replies R (s.hold key) (s'.hold key) := by
  unfold Session.hold
  rw [T.contains, T.attached, T.subpages]
  split
  · exact T.reply _
  · split
    · exact T.reply _
    · exact (T.withHandle key (.subpages s.pool.arena.subpages) nofun).reply _

/-! ## Commands on handles -/

theorem Twins.onBuffer (T : s.Twins R K ρ s') {key : Nat} {run run' : Buffer → Checked (Pool × Answered Unit)}
    (each : ∀ b : Buffer, b.core ∈ K → (run b).Agrees (run' (b.renamed ρ)) (Pool.Alike R K ρ)) :
    (s.onBuffer key run).Agrees (s'.onBuffer key run') (Replies R) := by
  unfold Session.onBuffer
  rw [T.get? key]
  cases found : s.handles.get? key with
  | none => exact agrees_pure.2 (T.reply _)
  | some h =>
    have known := T.known h (Registry.mem_values found)
    cases h with
    | buffer b =>
      refine (each b (known _ rfl)).bind ?_
      intro ⟨q, answer⟩ ⟨q', answer'⟩ ⟨twins, same⟩
      cases same
      exact agrees_pure.2 ((T.withPool twins).reply _)
    | view v => exact agrees_pure.2 (T.reply _)
    | core id => exact agrees_pure.2 (T.reply _)
    | subpages ids => exact agrees_pure.2 (T.reply _)

/-- A view that was changed on twins, with the same answer. -/
structure ViewAlike (R : Likeness) (K : Set CoreId) (ρ : CoreId → CoreId) (r r' : Pool × View × Answer) :
    Prop where
  twins : Pool.Twins R K ρ r.1 r'.1
  view : r'.2.1 = r.2.1.renamed ρ
  known : r.2.1.core ∈ K
  answer : r'.2.2 = r.2.2

theorem Twins.onEither (T : s.Twins R K ρ s') {key : Nat} {onBuffer onBuffer' : Buffer → Checked (Pool × Answer)}
    {onView onView' : View → Checked (Pool × View × Answer)}
    (buffer : ∀ b : Buffer, b.core ∈ K → (onBuffer b).Agrees (onBuffer' (b.renamed ρ)) (Pool.Alike R K ρ))
    (view : ∀ v : View, v.core ∈ K → (onView v).Agrees (onView' (v.renamed ρ)) (ViewAlike R K ρ)) :
    (s.onEither key onBuffer onView).Agrees (s'.onEither key onBuffer' onView') (Replies R) := by
  unfold Session.onEither
  rw [T.get? key]
  cases found : s.handles.get? key with
  | none => exact agrees_pure.2 (T.reply _)
  | some h =>
    have known := T.known h (Registry.mem_values found)
    cases h with
    | buffer b =>
      refine (buffer b (known _ rfl)).bind ?_
      intro ⟨q, answer⟩ ⟨q', answer'⟩ ⟨twins, same⟩
      cases same
      exact agrees_pure.2 ((T.withPool twins).reply _)
    | view v =>
      refine (view v (known _ rfl)).bind ?_
      intro ⟨q, w, answer⟩ ⟨q', w', answer'⟩ ⟨twins, renamed, mem, same⟩
      cases renamed
      cases same
      refine agrees_pure.2 (((T.withPool twins).withHandle key (.view w) fun id on => ?_).reply _)
      cases on
      exact mem
    | core id => exact agrees_pure.2 (T.reply _)
    | subpages ids => exact agrees_pure.2 (T.reply _)

theorem Twins.setIndex (T : s.Twins R K ρ s') (key reader writer : Nat) :
    (s.setIndex key reader writer).Agrees (s'.setIndex key reader writer) (Replies R) := by
  refine T.onEither (fun b mem => ?_) fun v mem => ?_
  · obtain ⟨twins, same⟩ := b.setIndex_alike T.pool mem reader writer
    exact agrees_ok.2 ⟨twins, congrArg Answer.ofUnit same⟩
  · rw [v.setIndex_renamed T.pool mem]
    cases answer : v.setIndex s.pool reader writer with
    | error refusal => exact agrees_ok.2 ⟨T.pool, rfl, mem, rfl⟩
    | ok w =>
      have core : w.core = v.core := View.core_of_setIndex answer
      exact agrees_ok.2 ⟨T.pool, rfl, core ▸ mem, rfl⟩

theorem Twins.write (T : s.Twins R K ρ s') (key : Nat) (bytes : ByteArray) :
    (s.write key bytes).Agrees (s'.write key bytes) (Replies R) := by
  refine T.onEither (fun b mem => ?_) fun v mem => ?_
  · refine (b.write_alike T.pool mem bytes).bind fun r r' alike => ?_
    exact agrees_pure.2 ⟨alike.1, congrArg Answer.ofUnit alike.2⟩
  · refine (v.write_alike T.pool mem bytes).bind ?_
    intro ⟨q, answer⟩ ⟨q', answer'⟩ ⟨twins, renamed, known⟩
    cases renamed
    cases answer with
    | error refusal => exact agrees_pure.2 ⟨twins, rfl, mem, rfl⟩
    | ok w => exact agrees_pure.2 ⟨twins, rfl, known w rfl, rfl⟩

theorem Twins.setBytes (T : s.Twins R K ρ s') (key index : Nat) (bytes : ByteArray) :
    (s.setBytes key index bytes).Agrees (s'.setBytes key index bytes) (Replies R) := by
  refine T.onEither (fun b mem => ?_) fun v mem => ?_
  · refine (T.pool.setBytes mem index bytes).bind fun r r' alike => ?_
    exact agrees_pure.2 ⟨alike.1, congrArg Answer.ofUnit alike.2⟩
  · refine (v.setBytes_alike T.pool mem index bytes).bind fun r r' alike => ?_
    exact agrees_pure.2 ⟨alike.1, rfl, mem, congrArg Answer.ofUnit alike.2⟩

theorem Twins.read (T : s.Twins R K ρ s') (key length : Nat) :
    (s.read key length).Agrees (s'.read key length) (Replies R) := by
  refine T.onEither (fun b mem => ?_) fun v mem => ?_
  · refine (b.read_alike T.pool mem length).bind fun r r' alike => ?_
    exact agrees_pure.2 ⟨alike.1, congrArg Answer.ofBytes alike.2⟩
  · refine (v.read_alike T.pool mem length).bind ?_
    intro answer answer' ⟨renamed, known⟩
    cases renamed
    cases answer with
    | error refusal => exact agrees_pure.2 ⟨T.pool, rfl, mem, rfl⟩
    | ok x => exact agrees_pure.2 ⟨T.pool, rfl, known x rfl, rfl⟩

theorem Twins.getBytes (T : s.Twins R K ρ s') (key index length : Nat) :
    (s.getBytes key index length).Agrees (s'.getBytes key index length) (Replies R) := by
  refine T.onEither (fun b mem => ?_) fun v mem => ?_
  · rw [b.getBytes_renamed T.pool mem]
    exact .step fun answer => agrees_pure.2 ⟨T.pool, rfl⟩
  · rw [v.getBytes_renamed T.pool mem]
    exact .step fun answer => agrees_pure.2 ⟨T.pool, rfl, mem, rfl⟩

theorem Twins.copyReadable (T : s.Twins R K ρ s') (key : Nat) :
    (s.copyReadable key).Agrees (s'.copyReadable key) (Replies R) := by
  refine T.onEither (fun b mem => ?_) fun v mem => ?_
  · rw [b.copyReadable_renamed T.pool mem]
    exact .step fun answer => agrees_pure.2 ⟨T.pool, rfl⟩
  · rw [v.copyReadable_renamed T.pool mem]
    exact .step fun answer => agrees_pure.2 ⟨T.pool, rfl, mem, rfl⟩

theorem Twins.info (T : s.Twins R K ρ s') (key : Nat) : (s.info key).Agrees (s'.info key) (Replies R) := by
  refine T.onEither (fun b mem => ?_) fun v mem => ?_
  · have same : bufferInfo s'.pool (b.renamed ρ) = bufferInfo s.pool b := by
      unfold bufferInfo
      rw [b.locator?_renamed T.pool mem, b.written_renamed T.pool mem, Buffer.renamed, T.pool.cores _ mem]
      simp only [Core.readable_renumbered, Core.writable_renumbered, Core.maxCapacity_renumbered]
    rw [same]
    exact .step fun answer => agrees_pure.2 ⟨T.pool, rfl⟩
  · rw [v.written_renamed T.pool mem, show (v.renamed ρ).readable = v.readable from rfl]
    exact .step fun readable => agrees_pure.2 ⟨T.pool, rfl, mem, rfl⟩

/-! ## Questions to the pool -/

theorem subpageList_congr (same : p.arena.Alike R p'.arena) (ids : List SubpageId) :
    subpageList p' ids = subpageList p ids := by
  induction ids with
  | nil => rfl
  | cons id rest ih =>
    unfold subpageList
    rw [same.subpageText, same.metric, ih]

/-- The figures of twins are equal but for the idle cores. -/
theorem stats_agrees (T : p.Twins R K ρ p') : p.stats.Agrees p'.stats fun x x' => x'.plain = x.plain := by
  unfold Pool.stats
  rw [T.arena.usedPages, T.arena.size, T.arena.activeLeases, T.moves]
  refine .step fun used => T.arena.activeSubpages.bind fun active active' same => ?_
  cases same
  exact agrees_pure.2 rfl

theorem Twins.whileAttached (T : s.Twins R K ρ s') {asked asked' : Checked (Session × Answer)}
    (h : asked.Agrees asked' (Replies R)) :
    (s.whileAttached asked).Agrees (s'.whileAttached asked') (Replies R) := by
  unfold Session.whileAttached
  rw [T.attached]
  split
  · exact h
  · exact agrees_ok.2 (T.reply _)

theorem Twins.held (T : s.Twins R K ρ s') (key : Nat) : (s.held key).Agrees (s'.held key) (Replies R) := by
  unfold Session.held
  rw [T.get? key]
  cases s.handles.get? key with
  | none => exact agrees_pure.2 (T.reply _)
  | some h =>
    cases h with
    | subpages ids =>
      simp only [Option.map_some, Handle.renamed, subpageList_congr T.pool.arena]
      exact .step fun list => agrees_pure.2 (T.reply _)
    | buffer b => exact agrees_pure.2 (T.reply _)
    | view v => exact agrees_pure.2 (T.reply _)
    | core id => exact agrees_pure.2 (T.reply _)

theorem Twins.detach (T : s.Twins R K ρ s') : Replies R s.detach s'.detach := by
  unfold Session.detach
  rw [T.attached]
  split
  · have gone : ({ s with attached := false } : Session).Twins R K ρ { s' with attached := false } :=
      ⟨T.pool, T.handles, T.ordered, T.known, rfl, T.closed⟩
    exact gone.reply _
  · exact T.reply _

/-! ## Giving up -/

/-- The last handle on a core takes it out of use. -/
theorem Twins.release (T : s.Twins R K ρ s') (W : s.Wf) {h : Handle} {id : CoreId}
    (found : s.handles.get? key = some h) (on : h.core? = some id) :
    (s.pool.release id).Agrees (s'.pool.release (ρ id)) fun q q' => ∃ L, Twins R L ρ
      { s with handles := s.handles.erase key, pool := q }
      { s' with handles := s'.handles.erase key, pool := q' } := by
  obtain ⟨l, lease, -⟩ := W.core_of_get? found on
  have refs := (W.shared id l lease).1
  have count := sharers_of_get? W.ordered found id
  rw [if_pos (Handle.uses_iff.2 on)] at count
  refine (T.pool.release (T.known h (Registry.mem_values found) id on)).mono fun q q' twins => ⟨_, twins, ?_,
    T.ordered.erase key, fun k mem i uses => ?_, T.attached, T.closed⟩
  · change s'.handles.erase key = (s.handles.erase key).map _
    rw [T.handles, Registry.erase_map]
  · have known := T.known k (mem_erase mem) i uses
    split
    · refine ⟨known, fun same => ?_⟩
      have none : (s.handles.erase key).values.countP (Handle.uses id) = 0 := by omega
      exact List.countP_eq_zero.1 none k mem (Handle.uses_iff.2 (same ▸ uses))
    · exact known

theorem Twins.dropHandle (T : s.Twins R K ρ s') (W : s.Wf) {h : Handle} (found : s.handles.get? key = some h) :
    (s.dropHandle key h).Agrees (s'.dropHandle key (h.renamed ρ)) fun t t' => ∃ L, Twins R L ρ t t' := by
  unfold Session.dropHandle
  cases h with
  | buffer b => exact (T.release W found rfl).bind fun q q' twins => agrees_pure.2 twins
  | view v => exact (T.release W found rfl).bind fun q q' twins => agrees_pure.2 twins
  | core id => exact (W.fits _ (Registry.mem_values found)).elim
  | subpages ids =>
    refine agrees_pure.2 ⟨K, T.pool, ?_, T.ordered.erase key, fun k mem => T.known k (mem_erase mem),
      T.attached, T.closed⟩
    change s'.handles.erase key = (s.handles.erase key).map _
    rw [T.handles, Registry.erase_map]

theorem Twins.dropAll (T : s.Twins R K ρ s') (W : s.Wf) (keys : List Nat) :
    (s.dropAll keys).Agrees (s'.dropAll keys) fun r r' => (∃ L, Twins R L ρ r.1 r'.1) ∧ r'.2 = r.2 := by
  induction keys generalizing s s' K with
  | nil => exact agrees_ok.2 ⟨⟨K, T⟩, rfl⟩
  | cons key rest ih =>
    unfold Session.dropAll
    rw [T.get? key]
    cases found : s.handles.get? key with
    | none => exact ih T W
    | some h =>
      refine ((T.dropHandle W found).and_gives (dropHandle_yields W found).gives).bind ?_
      rintro t t' ⟨⟨L, twins⟩, spares⟩
      refine (ih twins spares.wf).bind ?_
      rintro ⟨u, count⟩ ⟨u', count'⟩ ⟨twins, same⟩
      cases same
      exact agrees_pure.2 ⟨twins, rfl⟩

/-! ## Steps -/

theorem Twins.isReferenced (T : s.Twins R K ρ s') : s'.isReferenced = s.isReferenced := by
  have idle : ∀ {q : Pool}, q.Waits → (q.store.recycler.idle.any fun id => (q.core id).isBound) = false :=
    fun waits => List.any_eq_false.2 fun i mem => by simp [(waits.free i mem).2]
  have refers : ∀ h ∈ s.handles.values, refersToArena s'.pool (h.renamed ρ) = refersToArena s.pool h :=
    fun h mem => by
      have bound : ∀ id, h.core? = some id → (s'.pool.core (ρ id)).isBound = (s.pool.core id).isBound :=
        fun id on => by rw [T.pool.cores id (T.known h mem id on), Core.isBound_renumbered]
      cases h with
      | buffer b => exact bound _ rfl
      | view v => exact bound _ rfl
      | core id => exact bound _ rfl
      | subpages ids => rfl
  have any : s.handles.values.any (refersToArena s'.pool ∘ Handle.renamed ρ) =
      s.handles.values.any (refersToArena s.pool) := by
    rw [Bool.eq_iff_iff, List.any_eq_true, List.any_eq_true]
    exact exists_congr fun h => and_congr_right fun mem => by rw [Function.comp, refers h mem]
  unfold Session.isReferenced
  rw [idle T.pool.waits, idle T.pool.waits', T.attached, T.handles, Registry.values_map, List.any_map, any]

theorem countDestroyed_twins (T : p.Twins R K ρ p') (n : Nat) :
    (countDestroyed p n).Twins R K ρ (countDestroyed p' n) := by
  induction n with
  | zero => exact T
  | succ n ih => exact ih.count .chunkDestroyed

theorem Twins.settle (T : s.Twins R K ρ s') : s.settle.Twins R K ρ s'.settle := by
  unfold Session.settle
  rw [T.isReferenced, T.closed, T.pool.arena.size]
  split
  · exact T
  · exact ⟨countDestroyed_twins T.pool _, T.handles, T.ordered, T.known, T.attached, rfl⟩

/-- Twins answer every command of the interface alike. -/
theorem Twins.run (T : s.Twins R K ρ s') (W : s.Wf) (command : Command) (isPublic : command.isPublic = true) :
    (s.run command).Agrees (s'.run command) (Replies R) := by
  cases command with
  | buffer key capacity =>
    rw [Session.run, Session.run, T.defaultMaxCapacity]
    exact T.makeBuffer key capacity _
  | allocate key capacity maxCapacity => exact T.makeBuffer key capacity maxCapacity
  | fill key count capacity => exact T.fill key count capacity
  | drop key =>
    rw [Session.run, Session.run, Session.drop, Session.drop, T.get? key]
    cases found : s.handles.get? key with
    | none => exact agrees_pure.2 (T.reply _)
    | some h =>
      refine (T.dropHandle W found).bind ?_
      rintro t t' ⟨L, twins⟩
      exact agrees_pure.2 (twins.reply _)
  | dropRange key stop step =>
    rw [Session.run, Session.run, Session.dropRange, Session.dropRange, T.keys]
    refine (T.dropAll W _).bind ?_
    rintro ⟨t, count⟩ ⟨t', count'⟩ ⟨⟨L, twins⟩, same⟩
    cases same
    exact agrees_pure.2 (twins.reply _)
  | detach => exact agrees_ok.2 T.detach
  | duplicate key source =>
    rw [Session.run, Session.run]
    exact T.makeView (fun b mem => granted_alike (b.duplicate_alike T.pool mem)) fun v mem =>
      .inr ⟨_, _, rfl, rfl, granted_alike (v.duplicate_alike T.pool mem)⟩
  | slice key source index length =>
    rw [Session.run, Session.run]
    exact T.makeView (fun b mem => b.slice_alike T.pool mem index length) fun v mem =>
      .inr ⟨_, _, rfl, rfl, v.slice_alike T.pool mem index length⟩
  | sliceReadable key source =>
    rw [Session.run, Session.run]
    exact T.makeView (fun b mem => granted_alike (b.sliceReadable_alike T.pool mem)) fun v mem => .inl ⟨rfl, rfl⟩
  | setCapacity key capacity => exact T.onBuffer fun b mem => T.pool.setCapacity mem capacity
  | ensureWritable key additional => exact T.onBuffer fun b mem => b.ensureWritable_alike T.pool mem additional
  | setIndex key reader writer => exact T.setIndex key reader writer
  | write key bytes => exact T.write key bytes
  | setBytes key index bytes => exact T.setBytes key index bytes
  | read key length => exact T.read key length
  | getBytes key index length => exact T.getBytes key index length
  | copyReadable key => exact T.copyReadable key
  | info key => exact T.info key
  | stats =>
    refine T.whileAttached ((stats_agrees T.pool).bind fun x x' plain => agrees_pure.2 ?_)
    exact ⟨⟨K, ρ, T⟩, .stats plain⟩
  | freeSubpages capacity =>
    rw [Session.run, Session.run, T.freeSubpages]
    exact T.whileAttached (.step fun n => agrees_pure.2 (T.reply _))
  | counters => exact agrees_ok.2 ⟨⟨K, ρ, T⟩, .counters T.pool.arena.counters⟩
  | subpages =>
    rw [Session.run, Session.run, T.subpages, subpageList_congr T.pool.arena]
    exact T.whileAttached (.step fun list => agrees_pure.2 (T.reply _))
  | hold key => exact agrees_ok.2 (T.hold key)
  | held key => exact T.held key
  | coreNew _ => cases isPublic
  | coreReuse _ _ => cases isPublic
  | coreRetain _ => cases isPublic
  | coreRelease _ => cases isPublic
  | coreReclaim _ => cases isPublic
  | coreSetIndex _ _ _ => cases isPublic
  | coreClamp _ _ => cases isPublic
  | coreBind _ _ _ _ _ _ _ _ => cases isPublic
  | coreSetCapacity _ _ => cases isPublic
  | coreGetBytes _ _ _ => cases isPublic
  | coreSetBytes _ _ _ => cases isPublic
  | coreFastCapacity _ => cases isPublic
  | coreMove _ _ => cases isPublic

theorem Twins.step (T : s.Twins R K ρ s') (W : s.Wf) (command : Command) (isPublic : command.isPublic = true) :
    (s.step command).Agrees (s'.step command) (Replies R) := by
  refine (T.run W command isPublic).bind ?_
  intro ⟨t, answer⟩ ⟨t', answer'⟩ ⟨⟨L, ρ', twins⟩, alike⟩
  exact agrees_pure.2 ⟨⟨L, ρ', twins.settle⟩, alike⟩

/-! ## Runs -/

/-- The same commands with answers that are alike. -/
def EntryAlike (e e' : Command × Answer) : Prop := e'.1 = e.1 ∧ e.2.Alike e'.2

/-- The same commands with answers that are alike, with counters that are tied together. -/
def EntryLike (tied : Counters → Counters → Prop) (e e' : Command × Answer) : Prop :=
  e'.1 = e.1 ∧ e.2.Like tied e'.2

/-- What a caller sees of two sessions is the same, but for the idle cores. -/
structure LooksLike (s s' : Session) : Prop where
  shown : ∀ key, s'.shown? key = s.shown? key
  stats : ∃ x x', s.stats? = .ok x ∧ s'.stats? = .ok x' ∧ x'.map PoolStats.plain = x.map PoolStats.plain
  freeSubpages : ∀ capacity, s'.pool.arena.freeSubpages capacity = s.pool.arena.freeSubpages capacity
  subpages : subpageList s'.pool s'.pool.arena.subpages = subpageList s.pool s.pool.arena.subpages
  counters : s'.pool.arena.counters.plain = s.pool.arena.counters.plain

/-- What a caller sees of two sessions is the same, but for the idle cores and the counters. -/
structure Resembles (s s' : Session) : Prop where
  shown : ∀ key, s'.shown? key = s.shown? key
  stats : ∃ x x', s.stats? = .ok x ∧ s'.stats? = .ok x' ∧ x'.map PoolStats.plain = x.map PoolStats.plain
  freeSubpages : ∀ capacity, s'.pool.arena.freeSubpages capacity = s.pool.arena.freeSubpages capacity
  subpages : subpageList s'.pool s'.pool.arena.subpages = subpageList s.pool s.pool.arena.subpages

theorem Twins.shown? (T : s.Twins R K ρ s') (key : Nat) : s'.shown? key = s.shown? key := by
  unfold Session.shown?
  rw [T.get? key]
  cases found : s.handles.get? key with
  | none => rfl
  | some h =>
    have known := T.known h (Registry.mem_values found)
    have same : showHandle s'.pool (h.renamed ρ) = showHandle s.pool h := by
      cases h with
      | buffer b =>
        have mem := known _ rfl
        rw [Handle.renamed, showHandle, b.fastCapacity_renamed T.pool mem, b.locator?_renamed T.pool mem,
          Buffer.renamed, T.pool.cores _ mem]
        simp only [Core.capacity_renumbered]
        rfl
      | view v =>
        have mem := known _ rfl
        rw [Handle.renamed, showHandle, v.capacity_renamed T.pool mem, View.renamed, T.pool.cores _ mem]
        rfl
      | core id =>
        have mem := known _ rfl
        rw [Handle.renamed, showHandle, T.pool.cores _ mem]
        simp only [Core.capacity_renumbered, Core.isBound_renumbered]
        rfl
      | subpages ids => rfl
    rw [Option.map_some]
    exact congrArg (fun shown => some <$> shown) same

theorem Twins.resembles (T : s.Twins R K ρ s') (W : s.Wf) (W' : s'.Wf) : s.Resembles s' where
  shown := T.shown?
  stats := by
    obtain ⟨x, e, -⟩ := W.pool.stats_ok
    obtain ⟨x', e', -⟩ := W'.pool.stats_ok
    have plain := stats_agrees T.pool x x' e e'
    unfold Session.stats?
    rw [T.attached, e, e']
    split
    · exact ⟨_, _, rfl, rfl, congrArg some plain⟩
    · exact ⟨_, _, rfl, rfl, rfl⟩
  freeSubpages := T.freeSubpages
  subpages := by rw [T.subpages, subpageList_congr T.pool.arena]

/-- Twins stay twins over a run, and the answers are alike. -/
theorem Twins.plays (T : s.Twins R K ρ s') (S : s.Sound) (commands : List Command)
    (isPublic : ∀ command ∈ commands, command.isPublic = true) :
    (s.transcript commands).Agrees (s'.transcript commands) fun r r' =>
      (∃ L ρ, Twins R L ρ r.1 r'.1) ∧ List.Forall₂ (EntryLike R.counters) r.2 r'.2 := by
  induction commands generalizing s s' K ρ with
  | nil => exact agrees_ok.2 ⟨⟨K, ρ, T⟩, .nil⟩
  | cons command rest ih =>
    have first := isPublic command List.mem_cons_self
    refine ((T.step S.wf command first).and_gives (step_yields S command first).gives).bind ?_
    intro ⟨t, answer⟩ ⟨t', answer'⟩ ⟨⟨⟨L, ρ', twins⟩, alike⟩, effect⟩
    refine (ih twins effect.sound fun c hc => isPublic c (List.mem_cons_of_mem _ hc)).bind ?_
    intro ⟨u, entries⟩ ⟨u', entries'⟩ ⟨twins, all⟩
    exact agrees_pure.2 ⟨twins, .cons ⟨rfl, alike⟩ all⟩

/-- Twins look the same all along a run, and their counters stay tied together. -/
theorem Twins.passes (T : s.Twins R K ρ s') (S : s.Sound) (S' : s'.Sound) (commands : List Command)
    (isPublic : ∀ command ∈ commands, command.isPublic = true) :
    (s.stages commands).Agrees (s'.stages commands) (List.Forall₂ fun x x' =>
      x.Resembles x' ∧ R.counters x.pool.arena.counters x'.pool.arena.counters) := by
  induction commands generalizing s s' K ρ with
  | nil => exact agrees_ok.2 (.cons ⟨T.resembles S.wf S'.wf, T.pool.arena.counters⟩ .nil)
  | cons command rest ih =>
    have first := isPublic command List.mem_cons_self
    have steps := ((T.step S.wf command first).and_gives (step_yields S command first).gives).and_gives_right
      (step_yields S' command first).gives
    refine steps.bind ?_
    intro ⟨t, answer⟩ ⟨t', answer'⟩ ⟨⟨⟨⟨L, ρ', twins⟩, alike⟩, effect⟩, effect'⟩
    refine (ih twins effect.sound effect'.sound fun c hc => isPublic c (List.mem_cons_of_mem _ hc)).bind ?_
    intro all all' rest
    exact agrees_pure.2 (.cons ⟨T.resembles S.wf S'.wf, T.pool.arena.counters⟩ rest)

/-! ## Room for idle cores -/

/-- Counters that are plainly the same are told apart by the figures of the idle cores only. -/
theorem Answer.Like.alike {answer answer' : Answer} (h : answer.Like Likeness.plain.counters answer') :
    answer.Alike answer' := by
  cases h with
  | same => exact .same _
  | counters like => exact .counters like
  | stats plain => exact .stats plain

theorem Twins.transcript (T : s.Twins .plain K ρ s') (S : s.Sound) (commands : List Command)
    (isPublic : ∀ command ∈ commands, command.isPublic = true) :
    (s.transcript commands).Agrees (s'.transcript commands) fun r r' =>
      (∃ L ρ, Twins .plain L ρ r.1 r'.1) ∧ List.Forall₂ EntryAlike r.2 r'.2 :=
  (T.plays S commands isPublic).mono fun _ _ all => ⟨all.1, all.2.imp fun _ _ h => ⟨h.1, h.2.alike⟩⟩

/-- Twins look alike all along a run. -/
theorem Twins.stages (T : s.Twins .plain K ρ s') (S : s.Sound) (S' : s'.Sound) (commands : List Command)
    (isPublic : ∀ command ∈ commands, command.isPublic = true) :
    (s.stages commands).Agrees (s'.stages commands) (List.Forall₂ LooksLike) :=
  (T.passes S S' commands isPublic).mono fun _ _ all => all.imp fun _ _ h =>
    ⟨h.1.shown, h.1.stats, h.1.freeSubpages, h.1.subpages, h.2⟩

/-- New pools that differ in the room for idle cores only. -/
theorem twins_ofConfig (config : PoolConfig) (room : Nat) (supply : Supply) :
    (ofPool (.ofConfig config supply)).Twins .plain ∅ id
      (ofPool (.ofConfig { config with recyclerCapacity := room } supply)) where
  pool := ⟨Arena.alike_ofConfig config room supply, rfl, nofun, Set.injOn_empty _, nofun, nofun,
    ⟨nofun, List.nodup_nil⟩, ⟨nofun, List.nodup_nil⟩⟩
  handles := rfl
  ordered := Registry.ordered_empty
  known := nofun
  attached := rfl
  closed := rfl

section

variable {config : PoolConfig} {room : Nat} {supply : Supply} {pool pool' : Pool} {commands : List Command}

/-- Two pools that differ in the room for idle cores only answer all commands of a run alike, and look alike
before and after each of them. -/
theorem transcripts_alike (created : Pool.createOn supply config = .ok pool)
    (created' : Pool.createOn supply { config with recyclerCapacity := room } = .ok pool')
    (lossless : config.pageSize * 2 ^ config.maxOrder < Word.bound)
    (isPublic : ∀ command ∈ commands, command.isPublic = true) :
    (((ofPool pool).transcript commands).Yields fun r => ((ofPool pool').transcript commands).Yields fun r' =>
      List.Forall₂ EntryAlike r.2 r'.2) ∧
    ((ofPool pool).stages commands).Yields fun all => ((ofPool pool').stages commands).Yields fun all' =>
      List.Forall₂ LooksLike all all' := by
  have sound := sound_ofPool created lossless
  have sound' := sound_ofPool created' lossless
  obtain ⟨-, rfl⟩ := eq_ofConfig created
  obtain ⟨-, rfl⟩ := eq_ofConfig created'
  have twins := twins_ofConfig config room supply
  constructor
  · obtain ⟨r, e, -⟩ := transcript_yields sound commands isPublic
    obtain ⟨r', e', -⟩ := transcript_yields sound' commands isPublic
    exact ⟨r, e, r', e', (twins.transcript sound commands isPublic r r' e e').2⟩
  · obtain ⟨all, e, -⟩ := stages_yields sound commands isPublic
    obtain ⟨all', e', -⟩ := stages_yields sound' commands isPublic
    exact ⟨all, e, all', e', twins.stages sound sound' commands isPublic all all' e e'⟩

/-- With and without room for idle cores, and a core that is used a second time where there is room. -/
theorem transcripts_alike_default : ∃ r r',
    (ofPool (.ofConfig {} .full)).transcript [.buffer 0 100, .setIndex 0 7 9, .drop 0, .buffer 1 5000, .info 1] =
      .ok r ∧
    (ofPool (.ofConfig { recyclerCapacity := 0 } .full)).transcript
      [.buffer 0 100, .setIndex 0 7 9, .drop 0, .buffer 1 5000, .info 1] = .ok r' ∧
    List.Forall₂ EntryAlike r.2 r'.2 := by
  obtain ⟨⟨r, e, r', e', alike⟩, -⟩ := transcripts_alike
    (show Pool.createOn .full {} = .ok (.ofConfig {} .full) from rfl)
    (show Pool.createOn .full { recyclerCapacity := 0 } = .ok (.ofConfig { recyclerCapacity := 0 } .full) from rfl)
    (by decide)
    (show ∀ command ∈ [.buffer 0 100, .setIndex 0 7 9, .drop 0, .buffer 1 5000, .info 1],
      Command.isPublic command = true by decide)
  exact ⟨r, r', e, e', alike⟩

end

end Session

end BufferPool
