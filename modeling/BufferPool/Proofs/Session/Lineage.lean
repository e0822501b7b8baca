import Mathlib.Logic.Function.Basic
import BufferPool.Proofs.Session.Run

/-!
# How views came to be

A view is taken from a buffer, or from another view, and each slice cuts it down to a range of what it was
taken from. `Lineage` is that history of a view, and `Lineages` the histories of all handles, kept beside a run
by the commands and their answers alone. At every state of a run a view is what its history says
(`Lineage.Describes`): the ranges add up to where its window starts, and the last one is its length.
-/

namespace BufferPool

/-- How a view came to be: the core of the buffer that it goes back to, and the ranges that it was cut down
to, from the first to the last, each one by its start in the one before and its length. -/
structure Lineage where
  core : CoreId
  cuts : List (Nat × Nat)

namespace Lineage

variable {origin : Lineage} {v : View}

/-- All of a buffer. -/
def whole (core : CoreId) : Lineage := ⟨core, []⟩

/-- A range of what there was. -/
def cut (origin : Lineage) (index length : Nat) : Lineage :=
  { origin with cuts := origin.cuts ++ [(index, length)] }

/-- Where the last range starts in the buffer. -/
def start (origin : Lineage) : Nat := (origin.cuts.map Prod.fst).sum

/-- The length of the last range. -/
def length? (origin : Lineage) : Option Nat := origin.cuts.getLast?.map Prod.snd

/-- The bytes covered: the last range, or a buffer of the given capacity that was never cut down. -/
def window (origin : Lineage) (capacity : Nat) : Nat := origin.length?.getD capacity

@[simp] theorem start_whole (core : CoreId) : (whole core).start = 0 := rfl

@[simp] theorem start_cut (index length : Nat) : (origin.cut index length).start = origin.start + index := by
  simp [start, cut]

@[simp] theorem length?_cut (index length : Nat) : (origin.cut index length).length? = some length := by
  simp [length?, cut]

/-- A view that is on the core and has the window of its history. -/
structure Describes (origin : Lineage) (v : View) : Prop where
  core : v.core = origin.core
  start : v.start = origin.start
  length : v.length = origin.length?

/-- A range counted from the start of what a history describes. -/
theorem describes_ofRange (origin : Lineage) (index length : Nat) :
    (origin.cut index length).Describes (.ofRange origin.core (origin.start + index) length) :=
  ⟨rfl, start_cut index length |>.symm, length?_cut index length |>.symm⟩

theorem Describes.withCursors (h : origin.Describes v) (c : Cursors) : origin.Describes (v.withCursors c) :=
  ⟨h.core, h.start, h.length⟩

theorem Describes.capacity_eq (h : origin.Describes v) {p : Pool} {l : Lease}
    (lease : (p.core origin.core).lease = some l) : v.capacity p = origin.window l.length := by
  rw [View.capacity, window, h.length, h.core, Core.capacity_eq lease]
  cases origin.length? <;> rfl

end Lineage

/-- For the number of each view, how the view came to be. -/
abbrev Lineages := Nat → Lineage

namespace Lineages

open Session

/-- What there is under the number of a source: all of a buffer, or what a view has left of one. -/
def ofSource (m : Lineages) (s : Session) (source : Nat) : Lineage :=
  match s.handles.get? source with
  | some (.buffer b) => .whole b.core
  | _ => m source

/-- The histories after a command. A duplicate has that of its source, and a slice has one range more. -/
def after (m : Lineages) (s : Session) (command : Command) (answer : Answer) : Lineages :=
  match command, answer with
  | .duplicate key source, .done => Function.update m key (m.ofSource s source)
  | .slice key source index length, .done =>
    Function.update m key ((m.ofSource s source).cut index length)
  | .sliceReadable key source, .done =>
    let core := s.pool.core (m.ofSource s source).core
    Function.update m key ((m.ofSource s source).cut core.reader (core.writer - core.reader))
  | _, _ => m

/-- Every view of a session is what its history says. -/
def Describe (m : Lineages) (s : Session) : Prop :=
  ∀ key v, s.handles.get? key = some (.view v) → (m key).Describes v

end Lineages

namespace Session

open Checked

variable {s s' : Session} {key : Nat} {m : Lineages}

/-! ## Where views come from -/

/-- Under each number with a view, there was a view before. -/
def BringsNoView (s s' : Session) : Prop :=
  ∀ key w, s'.handles.get? key = some (.view w) → ∃ v, s.handles.get? key = some (.view v)

theorem BringsNoView.of_handles (same : s'.handles = s.handles) : s.BringsNoView s' :=
  fun _ w found => ⟨w, same ▸ found⟩

theorem BringsNoView.refl (s : Session) : s.BringsNoView s := .of_handles rfl

theorem BringsNoView.trans {s'' : Session} (h : s.BringsNoView s') (h' : s'.BringsNoView s'') :
    s.BringsNoView s'' := fun key w found => by
  obtain ⟨v, between⟩ := h' key w found
  exact h key v between

/-- A handle is put under a number, and it is no view unless there was one. -/
theorem BringsNoView.insert {h : Handle} (same : s'.handles = s.handles.insert key h)
    (old : ∀ w, h = .view w → ∃ v, s.handles.get? key = some (.view v)) : s.BringsNoView s' := by
  intro key' w found
  rw [same] at found
  by_cases here : key' = key
  · subst here
    rw [Registry.get?_insert_self] at found
    exact old w (Option.some.inj found)
  · exact ⟨w, (Registry.get?_insert_ne here).symm.trans found⟩

theorem BringsNoView.insertBuffer {b : Buffer} (same : s'.handles = s.handles.insert key (.buffer b)) :
    s.BringsNoView s' := .insert same fun w isView => by cases isView

theorem BringsNoView.erase (same : s'.handles = s.handles.erase key) : s.BringsNoView s' :=
  fun _ w found => ⟨w, Registry.get?_of_erase (same ▸ found)⟩

theorem makeBuffer_bringsNoView (key capacity maxCapacity : Nat) :
    (s.makeBuffer key capacity maxCapacity).Gives fun r => s.BringsNoView r.1 := by
  unfold makeBuffer
  split
  · exact gives_pure.2 (.refl s)
  · split
    · exact gives_pure.2 (.refl s)
    · refine .skip fun made => ?_
      obtain ⟨p, answer⟩ := made
      cases answer with
      | error refusal => exact gives_pure.2 (.of_handles rfl)
      | ok core => exact gives_pure.2 (.insertBuffer rfl)

theorem makeBuffers_bringsNoView (capacity count : Nat) : ∀ (s : Session) (key : Nat),
    (s.makeBuffers key capacity count).Gives fun r => s.BringsNoView r.1 := by
  induction count with
  | zero => exact fun s key => gives_ok.2 (.refl s)
  | succ n ih =>
    intro s key
    unfold makeBuffers
    refine .skip fun made => ?_
    obtain ⟨p, answer⟩ := made
    cases answer with
    | error refusal => exact gives_pure.2 (.of_handles rfl)
    | ok core =>
      have first : s.BringsNoView ((s.withPool p).withHandle key (.buffer ⟨core⟩)) := .insertBuffer rfl
      refine .skip fun locator => (ih _ _).bind ?_
      rintro ⟨s', locators, stopped⟩ others
      exact gives_pure.2 (first.trans others)

theorem fill_bringsNoView (key count capacity : Nat) :
    (s.fill key count capacity).Gives fun r => s.BringsNoView r.1 := by
  unfold fill
  split
  · exact gives_pure.2 (.refl s)
  · split
    · exact gives_pure.2 (.refl s)
    · exact (makeBuffers_bringsNoView capacity count s key).bind fun _ h => gives_pure.2 h

theorem dropHandle_bringsNoView (key : Nat) (h : Handle) :
    (s.dropHandle key h).Gives fun s' => s.BringsNoView s' := by
  unfold dropHandle
  cases h with
  | buffer b => exact .skip fun p => gives_pure.2 (.erase rfl)
  | view v => exact .skip fun p => gives_pure.2 (.erase rfl)
  | core id => exact gives_pure.2 (.erase rfl)
  | subpages ids => exact gives_pure.2 (.erase rfl)

theorem dropAll_bringsNoView (keys : List Nat) : ∀ s : Session,
    (s.dropAll keys).Gives fun r => s.BringsNoView r.1 := by
  induction keys with
  | nil => exact fun s => gives_ok.2 (.refl s)
  | cons key rest ih =>
    intro s
    unfold dropAll
    split
    · exact ih s
    · refine (dropHandle_bringsNoView key _).bind fun s' first => (ih s').bind ?_
      intro ⟨s'', count⟩ others
      exact gives_pure.2 (first.trans others)

theorem hold_bringsNoView (key : Nat) : s.BringsNoView (s.hold key).1 := by
  unfold hold
  split
  · exact .refl s
  · split
    · exact .refl s
    · exact .insert rfl nofun

theorem detach_bringsNoView : s.BringsNoView s.detach.1 := by
  unfold detach
  split
  · exact .of_handles rfl
  · exact .refl s

theorem onBuffer_bringsNoView {work : Buffer → Checked (Pool × Answered Unit)} :
    (s.onBuffer key work).Gives fun r => s.BringsNoView r.1 := by
  unfold onBuffer
  split
  · exact gives_pure.2 (.refl s)
  · exact .skip fun _ => gives_pure.2 (.of_handles rfl)
  · exact gives_pure.2 (.refl s)

/-- A command on a view puts a view in its place. -/
theorem onEither_bringsNoView {onBuffer : Buffer → Checked (Pool × Answer)}
    {onView : View → Checked (Pool × View × Answer)} :
    (s.onEither key onBuffer onView).Gives fun r => s.BringsNoView r.1 := by
  unfold onEither
  split
  · exact gives_pure.2 (.refl s)
  · exact .skip fun _ => gives_pure.2 (.of_handles rfl)
  · rename_i v found
    exact .skip fun _ => gives_pure.2 (.insert rfl fun _ _ => ⟨v, found⟩)
  · exact gives_pure.2 (.refl s)

/-- A question to the pool brings no handle. -/
theorem whileAttached_bringsNoView {asked : Checked (Session × Answer)} (looks : asked.Gives fun r => r.1 = s) :
    (s.whileAttached asked).Gives fun r => s.BringsNoView r.1 := by
  unfold whileAttached
  split
  · exact looks.mono fun r same => same ▸ .refl s
  · exact gives_ok.2 (.refl s)

theorem held_bringsNoView (key : Nat) : (s.held key).Gives fun r => s.BringsNoView r.1 := by
  unfold held
  split
  · exact gives_pure.2 (.refl s)
  · exact .skip fun _ => gives_pure.2 (.refl s)
  · exact gives_pure.2 (.refl s)

/-- Whether a command makes a view. -/
def Command.makesView : Command → Bool
  | .duplicate .. | .slice .. | .sliceReadable .. => true
  | _ => false

theorem run_bringsNoView (command : Command) (isPublic : command.isPublic = true)
    (other : command.makesView = false) : (s.run command).Gives fun r => s.BringsNoView r.1 := by
  cases command with
  | buffer key capacity => exact makeBuffer_bringsNoView key capacity _
  | allocate key capacity maxCapacity => exact makeBuffer_bringsNoView key capacity maxCapacity
  | fill key count capacity => exact fill_bringsNoView key count capacity
  | drop key =>
    change (s.drop key).Gives _
    unfold drop
    split
    · exact gives_pure.2 (.refl s)
    · exact (dropHandle_bringsNoView key _).bind fun _ h => gives_pure.2 h
  | dropRange key stop step => exact (dropAll_bringsNoView _ s).bind fun _ h => gives_pure.2 h
  | detach => exact gives_ok.2 detach_bringsNoView
  | duplicate key source => cases other
  | slice key source index length => cases other
  | sliceReadable key source => cases other
  | setCapacity key capacity => exact onBuffer_bringsNoView
  | ensureWritable key additional => exact onBuffer_bringsNoView
  | setIndex key reader writer => exact onEither_bringsNoView
  | write key bytes => exact onEither_bringsNoView
  | setBytes key index bytes => exact onEither_bringsNoView
  | read key length => exact onEither_bringsNoView
  | getBytes key index length => exact onEither_bringsNoView
  | copyReadable key => exact onEither_bringsNoView
  | info key => exact onEither_bringsNoView
  | stats => exact whileAttached_bringsNoView (.skip fun _ => gives_pure.2 rfl)
  | freeSubpages capacity => exact whileAttached_bringsNoView (.skip fun _ => gives_pure.2 rfl)
  | counters => exact gives_ok.2 (.refl s)
  | subpages => exact whileAttached_bringsNoView (.skip fun _ => gives_pure.2 rfl)
  | hold key => exact gives_ok.2 (hold_bringsNoView key)
  | held key => exact held_bringsNoView key
  | coreNew _ => cases isPublic
  | coreReuse _ _ => cases isPublic
  | coreRetain _ => cases isPublic
  | coreRelease _ => cases isPublic
  | coreReclaim _ => cases isPublic
  | coreSetIndex _ _ _ => cases isPublic
  | coreClamp _ _ => cases isPublic
  | coreBind _ _ _ _ _ _ _ _ => cases isPublic
  | coreSetCapacity _ _ => cases isPublic
  | coreGetBytes _ _ _ => cases isPublic
  | coreSetBytes _ _ _ => cases isPublic
  | coreFastCapacity _ => cases isPublic
  | coreMove _ _ => cases isPublic

/-! ## Views that are made -/

/-- What a command that makes a view does to the handles: nothing, or one view more. -/
def MakesView (s : Session) (key : Nat) (P : View → Prop) (r : Session × Answer) : Prop :=
  r.2 ≠ .done ∧ r.1.handles = s.handles ∨
    r.2 = .done ∧ ∃ w, P w ∧ r.1.handles = s.handles.insert key (.view w)

theorem makeView_gives {P : View → Prop} (key source : Nat)
    {ofBuffer : Buffer → Checked (Pool × Answered View)}
    {ofView : View → Option (Checked (Pool × Answered View))}
    (buffer : ∀ b, s.handles.get? source = some (.buffer b) →
      (ofBuffer b).Gives fun r => ∀ w, r.2 = .ok w → P w)
    (view : ∀ v made, s.handles.get? source = some (.view v) → ofView v = some made →
      made.Gives fun r => ∀ w, r.2 = .ok w → P w) :
    (s.makeView key source ofBuffer ofView).Gives (s.MakesView key P) := by
  have refused : ∀ p refusal, s.MakesView key P (s.withPool p, .refused refusal) :=
    fun p refusal => .inl ⟨Answer.ne_done rfl, rfl⟩
  have granted : ∀ p w, P w → s.MakesView key P ((s.withPool p).withHandle key (.view w), .done) :=
    fun p w is => .inr ⟨rfl, w, is, rfl⟩
  unfold makeView
  split
  · exact gives_pure.2 (.inl ⟨Answer.ne_done rfl, rfl⟩)
  · cases found : s.handles.get? source with
    | none => exact gives_pure.2 (.inl ⟨Answer.ne_done rfl, rfl⟩)
    | some handle =>
      cases handle with
      | buffer b =>
        refine (buffer b found).bind ?_
        rintro ⟨p, refusal | w⟩ is
        · exact gives_pure.2 (refused p refusal)
        · exact gives_pure.2 (granted p w (is w rfl))
      | view v =>
        cases made : ofView v with
        | none =>
          simp only [made]
          exact gives_pure.2 (.inl ⟨Answer.ne_done rfl, rfl⟩)
        | some made' =>
          simp only [made]
          refine (view v made' found made).bind ?_
          rintro ⟨p, refusal | w⟩ is
          · exact gives_pure.2 (refused p refusal)
          · exact gives_pure.2 (granted p w (is w rfl))
      | core _ => exact gives_pure.2 (.inl ⟨Answer.ne_done rfl, rfl⟩)
      | subpages _ => exact gives_pure.2 (.inl ⟨Answer.ne_done rfl, rfl⟩)

theorem granted_gives {P : View → Prop} {made : Checked (Pool × View)} (h : made.Gives fun r => P r.2) :
    (granted made).Gives fun r => ∀ w, r.2 = .ok w → P w := by
  unfold granted
  refine h.bind fun ⟨p, w⟩ is => gives_pure.2 ?_
  intro w' same
  exact Except.ok.inj same ▸ is

/-- A buffer is duplicated as a whole. -/
theorem duplicate_describes (b : Buffer) (p : Pool) :
    (b.duplicate p).Gives fun r => (Lineage.whole b.core).Describes r.2 :=
  .skip fun _ => gives_pure.2 ⟨rfl, rfl, rfl⟩

theorem slice_describes (b : Buffer) (p : Pool) (index length : Nat) :
    (b.slice p index length).Gives fun r =>
      ∀ w, r.2 = .ok w → ((Lineage.whole b.core).cut index length).Describes w := by
  unfold Buffer.slice
  split
  · exact gives_pure.2 nofun
  · refine .skip fun p' => gives_pure.2 ?_
    rintro w ⟨⟩
    have same := Lineage.describes_ofRange (.whole b.core) index length
    rwa [Lineage.start_whole, Nat.zero_add] at same

theorem sliceReadable_describes (b : Buffer) (p : Pool) :
    (b.sliceReadable p).Gives fun r => ((Lineage.whole b.core).cut (p.core b.core).reader
      ((p.core b.core).writer - (p.core b.core).reader)).Describes r.2 := by
  unfold Buffer.sliceReadable
  refine (Word.sub_gives _ _).bind ?_
  rintro length rfl
  refine .skip fun p' => gives_pure.2 ?_
  have same := Lineage.describes_ofRange (.whole b.core) (p.core b.core).reader
    ((p.core b.core).writer - (p.core b.core).reader)
  rwa [Lineage.start_whole, Nat.zero_add] at same

theorem View.duplicate_describes {origin : Lineage} {v : View} (h : origin.Describes v) (p : Pool) :
    (v.duplicate p).Gives fun r => origin.Describes r.2 :=
  .skip fun _ => gives_pure.2 h

theorem View.slice_describes {origin : Lineage} {v : View} (h : origin.Describes v) (p : Pool)
    (index length : Nat) :
    (v.slice p index length).Gives fun r => ∀ w, r.2 = .ok w → (origin.cut index length).Describes w := by
  unfold View.slice
  split
  · exact gives_pure.2 nofun
  · refine .skip fun p' => (Word.add_gives _ _).bind ?_
    rintro position rfl
    refine gives_pure.2 ?_
    rintro w ⟨⟩
    rw [h.core, h.start]
    exact Lineage.describes_ofRange origin index length

end Session

namespace Lineages

open Session Checked

variable {s s' : Session} {m : Lineages} {command : Command} {answer : Answer} {key source : Nat}

theorem ofSource_buffer {b : Buffer} (found : s.handles.get? source = some (.buffer b)) :
    m.ofSource s source = .whole b.core := by
  rw [ofSource, found]

theorem ofSource_view {v : View} (found : s.handles.get? source = some (.view v)) :
    m.ofSource s source = m source := by
  rw [ofSource, found]

theorem after_of_ne_done (refused : answer ≠ .done) : m.after s command answer = m := by
  cases answer with
  | done => exact absurd rfl refused
  | _ => cases command <;> rfl

theorem after_of_other (other : command.makesView = false) : m.after s command answer = m := by
  cases command
  case duplicate => cases other
  case slice => cases other
  case sliceReadable => cases other
  all_goals rfl

/-- The handles of a session stay. -/
theorem Describe.of_handles (D : m.Describe s) (same : s'.handles = s.handles) : m.Describe s' :=
  fun key v found => D key v (same ▸ found)

/-- A new view that is what its history says. -/
theorem Describe.insert (D : m.Describe s) {w : View} (same : s'.handles = s.handles.insert key (.view w))
    {origin : Lineage} (is : origin.Describes w) : Describe (Function.update m key origin) s' := by
  intro key' v found
  rw [same] at found
  by_cases here : key' = key
  · subst here
    rw [Registry.get?_insert_self] at found
    cases found
    rw [Function.update_self]
    exact is
  · rw [Registry.get?_insert_ne here] at found
    rw [Function.update_of_ne here]
    exact D key' v found

/-- A command that makes no view: the views that are left are where they were. -/
theorem Describe.kept (D : m.Describe s) {r : Session × Answer} (brings : s.BringsNoView r.1)
    (moves : s.Moves command r) : m.Describe r.1 := by
  intro key w found
  obtain ⟨v, before⟩ := brings key w found
  rcases moves.view key v before with ⟨-, gone⟩ | stays
  · rw [gone] at found
    cases found
  · rw [stays] at found
    cases found
    exact (D key v before).withCursors _

/-- A command that makes a view with a history: the view is that, and all others stay what they were. -/
theorem Describe.made (D : m.Describe s) {origin : Lineage} {r : Session × Answer}
    (makes : s.MakesView key origin.Describes r)
    (after : m.after s command .done = Function.update m key origin) :
    (m.after s command r.2).Describe r.1 := by
  rcases makes with ⟨refused, same⟩ | ⟨done, w, is, inserted⟩
  · rw [after_of_ne_done refused]
    exact D.of_handles same
  · rw [done, after]
    exact D.insert inserted is

theorem Describe.run_duplicate (D : m.Describe s) (key source : Nat) :
    (s.run (.duplicate key source)).Gives (s.MakesView key (m.ofSource s source).Describes) := by
  rw [run]
  refine makeView_gives key source (fun b found => ?_) fun v made found e => ?_
  · rw [ofSource_buffer found]
    exact granted_gives (duplicate_describes b s.pool)
  · cases e
    rw [ofSource_view found]
    exact granted_gives (View.duplicate_describes (D source v found) s.pool)

theorem Describe.run_slice (D : m.Describe s) (key source index length : Nat) :
    (s.run (.slice key source index length)).Gives
      (s.MakesView key ((m.ofSource s source).cut index length).Describes) := by
  rw [run]
  refine makeView_gives key source (fun b found => ?_) fun v made found e => ?_
  · rw [ofSource_buffer found]
    exact slice_describes b s.pool index length
  · cases e
    rw [ofSource_view found]
    exact View.slice_describes (D source v found) s.pool index length

theorem run_sliceReadable (m : Lineages) (s : Session) (key source : Nat) :
    (s.run (.sliceReadable key source)).Gives (s.MakesView key ((m.ofSource s source).cut
      (s.pool.core (m.ofSource s source).core).reader ((s.pool.core (m.ofSource s source).core).writer -
        (s.pool.core (m.ofSource s source).core).reader)).Describes) := by
  rw [run]
  refine makeView_gives key source (fun b found => ?_) fun v made found e => ?_
  · rw [ofSource_buffer found]
    exact granted_gives (sliceReadable_describes b s.pool)
  · cases e

theorem Describe.run (D : m.Describe s) (W : s.Wf) (command : Command) (isPublic : command.isPublic = true) :
    (s.run command).Gives fun r => (m.after s command r.2).Describe r.1 := by
  cases makes : command.makesView with
  | false =>
    have moves := (run_yields W command isPublic).gives
    refine ((run_bringsNoView command isPublic makes).and moves).mono fun r ⟨brings, effect⟩ => ?_
    rw [after_of_other makes]
    exact D.kept brings effect.moves
  | true =>
    cases command
    case duplicate key source => exact (D.run_duplicate key source).mono fun r made => D.made made rfl
    case slice key source index length =>
      exact (D.run_slice key source index length).mono fun r made => D.made made rfl
    case sliceReadable key source =>
      exact (run_sliceReadable m s key source).mono fun r made => D.made made rfl
    all_goals cases makes

/-- A step keeps the histories right. -/
theorem Describe.step (D : m.Describe s) (S : s.Sound) (command : Command)
    (isPublic : command.isPublic = true) :
    (s.step command).Yields fun r => r.1.Sound ∧ (m.after s command r.2).Describe r.1 := by
  have describes : (s.step command).Gives fun r => (m.after s command r.2).Describe r.1 := by
    refine (D.run S.wf command isPublic).bind fun r D' => gives_pure.2 ?_
    exact D'.of_handles (handles_settle r.1)
  apply ((step_yields S command isPublic).and_gives describes).mono
  intro r ⟨effect, D'⟩
  exact ⟨effect.sound, D'⟩

end Lineages

namespace Session

variable {s : Session}

/-- Runs commands one after the other and keeps the histories of the views. -/
def descend (s : Session) (m : Lineages) : (commands : List Command) → Checked (Session × Lineages)
  | [] => .ok (s, m)
  | command :: rest => do
    let r ← s.step command
    r.1.descend (m.after s command r.2) rest

/-- At the end of any run every view is what its history says. -/
theorem descend_yields (S : s.Sound) {m : Lineages} (D : m.Describe s) (commands : List Command)
    (isPublic : ∀ command ∈ commands, command.isPublic = true) :
    (s.descend m commands).Yields fun r => r.1.Sound ∧ r.2.Describe r.1 := by
  induction commands generalizing s m with
  | nil => exact Checked.yields_ok.2 ⟨S, D⟩
  | cons command rest ih =>
    apply (D.step S command (isPublic _ List.mem_cons_self)).bind
    intro r ⟨sound, D'⟩
    exact ih sound D' fun c hc => isPublic c (List.mem_cons_of_mem _ hc)

end Session

end BufferPool
