import BufferPool.Proofs.Pool.Twins
import BufferPool.Session.Basic

/-!
# Handles on renamed cores

A buffer or a view does the same on a pool and, with its core renamed, on a twin of the pool.
-/

namespace BufferPool

open Checked

variable {R : Likeness} {p p' : Pool} {K : Set CoreId} {ρ : CoreId → CoreId}

namespace Buffer

variable {b : Buffer}

/-- The buffer on the core that another pool has for its own. -/
def renamed (b : Buffer) (ρ : CoreId → CoreId) : Buffer := ⟨ρ b.core⟩

section

variable (T : p.Twins R K ρ p') (mem : b.core ∈ K)
include T mem

theorem capacity_renamed : (b.renamed ρ).capacity p' = b.capacity p :=
  (congrArg Core.capacity (T.cores _ mem)).trans Core.capacity_renumbered

theorem fastCapacity_renamed : (b.renamed ρ).fastCapacity p' = b.fastCapacity p := by
  unfold fastCapacity renamed Core.bound
  rw [T.cores _ mem, Core.renumbered]
  cases (p.core b.core).lease <;> rfl

theorem locator?_renamed : (b.renamed ρ).locator? p' = b.locator? p := by
  unfold locator? renamed Core.bound
  rw [T.cores _ mem, Core.renumbered]
  cases (p.core b.core).lease <;> rfl

theorem written_renamed : (b.renamed ρ).written p' = b.written p := by
  unfold written renamed
  dsimp only
  rw [T.cores _ mem, Core.capacity_renumbered]
  rfl

theorem getBytes_renamed (index length : Nat) :
    (b.renamed ρ).getBytes p' index length = b.getBytes p index length := T.getBytes mem index length

theorem copyReadable_renamed : (b.renamed ρ).copyReadable p' = b.copyReadable p := by
  unfold copyReadable renamed
  dsimp only
  simp only [T.cores _ mem, T.getBytes mem]
  rfl

theorem setIndex_alike (reader writer : Nat) :
    Pool.Alike R K ρ (b.setIndex p reader writer) ((b.renamed ρ).setIndex p' reader writer) := by
  unfold setIndex
  rw [capacity_renamed T mem]
  split
  · exact ⟨T, rfl⟩
  · exact ⟨T.modifyCore mem _ _ rfl, rfl⟩

theorem ensureWritable_alike (additional : Nat) : (b.ensureWritable p additional).Agrees
    ((b.renamed ρ).ensureWritable p' additional) (Pool.Alike R K ρ) := by
  unfold ensureWritable renamed
  dsimp only
  rw [T.cores _ mem, Core.writable_renumbered, Core.writer_renumbered, Core.maxCapacity_renumbered]
  refine .step fun writable => ?_
  split
  · exact agrees_pure.2 ⟨T, rfl⟩
  · split
    · exact agrees_pure.2 ⟨T, rfl⟩
    · exact T.setCapacity mem _

theorem write_alike (bytes : ByteArray) :
    (b.write p bytes).Agrees ((b.renamed ρ).write p' bytes) (Pool.Alike R K ρ) := by
  unfold write
  refine (ensureWritable_alike T mem bytes.size).bind ?_
  intro ⟨p₁, answer⟩ ⟨p₁', answer'⟩ ⟨twins, alike⟩
  cases alike
  cases answer with
  | error refusal => exact agrees_pure.2 ⟨twins, rfl⟩
  | ok =>
    have same := twins.cores _ mem
    dsimp only [renamed]
    rw [same, Core.writer_renumbered]
    refine (twins.setBytes mem _ bytes).bind ?_
    intro ⟨p₂, answer⟩ ⟨p₂', answer'⟩ ⟨twins, alike⟩
    cases alike
    cases answer with
    | error refusal => exact agrees_pure.2 ⟨twins, rfl⟩
    | ok => exact .step fun writer => agrees_pure.2 ⟨twins.modifyCore mem _ _ rfl, rfl⟩

theorem read_alike (length : Nat) :
    (b.read p length).Agrees ((b.renamed ρ).read p' length) (Pool.Alike R K ρ) := by
  unfold read renamed
  dsimp only
  rw [T.cores _ mem, Core.readable_renumbered, Core.reader_renumbered, Core.writer_renumbered]
  refine .step fun readable => ?_
  split
  · exact agrees_pure.2 ⟨T, rfl⟩
  · rw [T.getBytes mem]
    refine .step fun answer => ?_
    cases answer with
    | error refusal => exact agrees_pure.2 ⟨T, rfl⟩
    | ok bytes => exact .step fun reader => agrees_pure.2 ⟨T.modifyCore mem _ _ rfl, rfl⟩

end

end Buffer

namespace View

variable {v : View}

/-- The view on the core that another pool has for its own. -/
def renamed (v : View) (ρ : CoreId → CoreId) : View := { v with core := ρ v.core }

/-- Setting cursors leaves a view on its core. -/
theorem core_of_setIndex {w : View} {reader writer : Nat} (made : v.setIndex p reader writer = .ok w) :
    w.core = v.core := by
  unfold setIndex at made
  split at made
  · cases made
  · cases made
    rfl

/-- A view that was made, on a core in use. -/
def Made (R : Likeness) (K : Set CoreId) (ρ : CoreId → CoreId) (r r' : Pool × Answered View) : Prop :=
  Pool.Twins R K ρ r.1 r'.1 ∧ r'.2 = r.2.map (·.renamed ρ) ∧ ∀ w, r.2 = .ok w → w.core ∈ K

section

variable (T : p.Twins R K ρ p') (mem : v.core ∈ K)
include T mem

theorem capacity_renamed : (v.renamed ρ).capacity p' = v.capacity p := by
  unfold capacity renamed
  dsimp only
  rw [T.cores _ mem, Core.capacity_renumbered]

theorem written_renamed : (v.renamed ρ).written p' = v.written p := by
  unfold written
  rw [capacity_renamed T mem]
  rfl

theorem setIndex_renamed (reader writer : Nat) :
    (v.renamed ρ).setIndex p' reader writer = (v.setIndex p reader writer).map (·.renamed ρ) := by
  unfold setIndex
  rw [capacity_renamed T mem]
  split <;> rfl

theorem getBytes_renamed (index length : Nat) :
    (v.renamed ρ).getBytes p' index length = v.getBytes p index length := by
  unfold getBytes
  rw [capacity_renamed T mem]
  simp only [renamed, T.getBytes mem]

theorem copyReadable_renamed : (v.renamed ρ).copyReadable p' = v.copyReadable p := by
  unfold copyReadable
  simp only [getBytes_renamed T mem]
  rfl

theorem setBytes_alike (index : Nat) (bytes : ByteArray) : (v.setBytes p index bytes).Agrees
    ((v.renamed ρ).setBytes p' index bytes) (Pool.Alike R K ρ) := by
  unfold setBytes
  rw [capacity_renamed T mem]
  split
  · exact agrees_pure.2 ⟨T, rfl⟩
  · exact .step fun position => T.setBytes mem position bytes

theorem write_alike (bytes : ByteArray) :
    (v.write p bytes).Agrees ((v.renamed ρ).write p' bytes) (Made R K ρ) := by
  unfold write
  refine (setBytes_alike T mem _ bytes).bind ?_
  intro ⟨q, answer⟩ ⟨q', answer'⟩ ⟨twins, alike⟩
  cases alike
  cases answer with
  | error refusal => exact agrees_pure.2 ⟨twins, rfl, nofun⟩
  | ok =>
    refine .step fun writer => agrees_pure.2 ⟨twins, rfl, ?_⟩
    intro w made
    cases made
    exact mem

theorem read_alike (length : Nat) : (v.read p length).Agrees ((v.renamed ρ).read p' length) fun r r' =>
    r' = r.map (fun x => (x.1.renamed ρ, x.2)) ∧ ∀ x, r = .ok x → x.1.core ∈ K := by
  unfold read
  refine .step fun readable => ?_
  split
  · exact agrees_pure.2 ⟨rfl, nofun⟩
  · rw [getBytes_renamed T mem]
    refine .step fun answer => ?_
    cases answer with
    | error refusal => exact agrees_pure.2 ⟨rfl, nofun⟩
    | ok bytes =>
      refine .step fun reader => agrees_pure.2 ⟨rfl, ?_⟩
      intro x made
      cases made
      exact mem

theorem duplicate_alike : (v.duplicate p).Agrees ((v.renamed ρ).duplicate p') fun r r' =>
    Pool.Twins R K ρ r.1 r'.1 ∧ r'.2 = r.2.renamed ρ ∧ r.2.core ∈ K :=
  (T.retain mem).bind fun _ _ twins => agrees_pure.2 ⟨twins, rfl, mem⟩

theorem slice_alike (index length : Nat) :
    (v.slice p index length).Agrees ((v.renamed ρ).slice p' index length) (Made R K ρ) := by
  unfold slice
  rw [capacity_renamed T mem]
  split
  · exact agrees_pure.2 ⟨T, rfl, nofun⟩
  · refine (T.retain mem).bind fun q q' twins => .step fun start => agrees_pure.2 ⟨twins, rfl, ?_⟩
    intro w made
    cases made
    exact mem

end

end View

namespace Buffer

variable {b : Buffer}

section

variable (T : p.Twins R K ρ p') (mem : b.core ∈ K)
include T mem

theorem duplicate_alike : (b.duplicate p).Agrees ((b.renamed ρ).duplicate p') fun r r' =>
    Pool.Twins R K ρ r.1 r'.1 ∧ r'.2 = r.2.renamed ρ ∧ r.2.core ∈ K := by
  unfold duplicate
  refine (T.retain mem).bind fun q q' twins => agrees_pure.2 ⟨twins, ?_, mem⟩
  dsimp only [renamed]
  rw [T.cores _ mem]
  rfl

theorem slice_alike (index length : Nat) :
    (b.slice p index length).Agrees ((b.renamed ρ).slice p' index length) (View.Made R K ρ) := by
  unfold slice
  rw [capacity_renamed T mem]
  split
  · exact agrees_pure.2 ⟨T, rfl, nofun⟩
  · refine (T.retain mem).bind fun q q' twins => agrees_pure.2 ⟨twins, rfl, ?_⟩
    intro w made
    cases made
    exact mem

theorem sliceReadable_alike : (b.sliceReadable p).Agrees ((b.renamed ρ).sliceReadable p') fun r r' =>
    Pool.Twins R K ρ r.1 r'.1 ∧ r'.2 = r.2.renamed ρ ∧ r.2.core ∈ K := by
  unfold sliceReadable renamed
  dsimp only
  rw [T.cores _ mem]
  exact .step fun length => (T.retain mem).bind fun q q' twins => agrees_pure.2 ⟨twins, rfl, mem⟩

end

end Buffer

end BufferPool
