import BufferPool.Proofs.Session.Effect

/-!
# The commands of the interface

The effect of every command that works on a buffer or a view. The commands that make handles and give them
up stand in a module of their own.
-/

namespace BufferPool

namespace Session

variable {s s' : Session} {p : Pool} {key : Nat}

/-! ## Commands on buffers -/

theorem setCapacity_yields (W : s.Wf) (key capacity : Nat) :
    (s.run (.setCapacity key capacity)).Yields (Effect s (.setCapacity key capacity)) := by
  apply onBuffer_yields W rfl
  intro b l found lease
  apply (Pool.setCapacity_yields W.pool lease capacity).mono
  intro ⟨p, answer⟩ outcome
  rcases outcome with ⟨refusal, rfl, same⟩ | ⟨rfl, resizes⟩
  · exact .inl ⟨refusal, rfl, same⟩
  · obtain ⟨k, -, core⟩ := resizes.core
    refine .inr ⟨rfl, resizes.uses, by rw [core]; rfl, fun m H => ?_⟩
    simp only [Known.after, found, Answer.ofUnit]
    exact H.resizes resizes

theorem ensureWritable_yields (W : s.Wf) (key additional : Nat) :
    (s.run (.ensureWritable key additional)).Yields (Effect s (.ensureWritable key additional)) := by
  apply onBuffer_yields W rfl
  intro b l found lease
  apply (Buffer.ensureWritable_yields W.pool lease additional).mono
  intro ⟨p, answer⟩ outcome
  rcases outcome with ⟨refusal, rfl, same⟩ | ⟨rfl, n, resizes, room⟩
  · exact .inl ⟨refusal, rfl, same⟩
  · obtain ⟨k, -, core⟩ := resizes.core
    -- The cursors are inside the new capacity already.
    rw [Pool.clamp_of_le (W.pool.cores _ l lease).ordered (by omega)] at core
    refine .inr ⟨rfl, resizes.uses, by rw [core]; rfl, fun m H => ?_⟩
    simp only [Known.after, found, Answer.ofUnit, withPool, Buffer.capacity, resizes.capacity_eq]
    exact H.resizes resizes

/-! ## Commands on buffers and views -/

theorem setIndex_yields (W : s.Wf) (key reader writer : Nat) :
    (s.run (.setIndex key reader writer)).Yields (Effect s (.setIndex key reader writer)) := by
  refine onEither_yields W rfl (fun b l found lease => ?_) fun v l found F lease => ?_
  · have cases := Buffer.setIndex_cases W.pool lease reader writer
    change Checked.Yields (.ok ((b.setIndex s.pool reader writer).1,
      Answer.ofUnit (b.setIndex s.pool reader writer).2)) _
    generalize b.setIndex s.pool reader writer = r at cases ⊢
    obtain ⟨p, answer⟩ := r
    rcases cases with ⟨refusal, e⟩ | ⟨rfl, uses, core, same⟩
    · cases e
      exact Checked.yields_ok.2 (.inl ⟨refusal, rfl, .refl W.pool⟩)
    · exact Checked.yields_ok.2 (.inr ⟨rfl, uses, congrArg Core.cursors core, fun m H => H.uses uses same⟩)
  · rcases View.setIndex_cases F W.pool lease reader writer with ⟨refusal, e⟩ | ⟨e, fits⟩
    · simp only [e]
      exact Checked.yields_ok.2 (.inl ⟨refusal, rfl⟩)
    · simp only [e]
      have uses := Pool.Uses.refl W.pool lease
      exact Checked.yields_ok.2
        (.inr ⟨rfl, rfl, fits, uses, rfl, fun m H => H.uses uses fun _ => rfl⟩)

theorem write_yields (W : s.Wf) (key : Nat) (bytes : ByteArray) :
    (s.run (.write key bytes)).Yields (Effect s (.write key bytes)) := by
  refine onEither_yields W rfl (fun b l found lease => ?_) fun v l found F lease => ?_
  · apply (Buffer.write_yields W.pool lease bytes).bind
    intro ⟨p, answer⟩ outcome
    rcases outcome with ⟨refusal, rfl, same, -⟩ | ⟨rfl, reader, writer, puts⟩
    · exact Checked.yields_pure.2 (.inl ⟨refusal, rfl, same⟩)
    · have own := congrArg₂ Cursors.mk reader writer
      refine Checked.yields_pure.2 (.inr ⟨rfl, puts.uses, own, fun m H => ?_⟩)
      simp only [Known.after, found, Answer.ofUnit]
      exact H.puts puts
  · apply (View.write_yields F W.pool lease bytes).bind
    intro ⟨p, answer⟩ outcome
    rcases outcome with ⟨refusal, e⟩ | ⟨rfl, fits, same, puts⟩
    · cases e
      exact Checked.yields_pure.2 (.inl ⟨refusal, rfl⟩)
    · have core := congrArg Core.cursors same
      refine Checked.yields_pure.2 (.inr ⟨rfl, rfl, fits, puts.uses, core, fun m H => ?_⟩)
      simp only [Known.after, found]
      exact H.puts_same puts same

theorem setBytes_yields (W : s.Wf) (key index : Nat) (bytes : ByteArray) :
    (s.run (.setBytes key index bytes)).Yields (Effect s (.setBytes key index bytes)) := by
  refine onEither_yields W rfl (fun b l found lease => ?_) fun v l found F lease => ?_
  · apply (Pool.setBytes_yields W.pool lease index bytes).bind
    intro ⟨p, answer⟩ outcome
    rcases outcome with ⟨-, refusal, e⟩ | ⟨-, rfl, same, -, puts⟩
    · cases e
      exact Checked.yields_pure.2 (.inl ⟨refusal, rfl, .refl W.pool⟩)
    · have own := congrArg Core.cursors same
      refine Checked.yields_pure.2 (.inr ⟨rfl, puts.uses, own, fun m H => ?_⟩)
      simp only [Known.after, found, Answer.ofUnit]
      exact H.puts_same puts same
  · apply (View.setBytes_yields F W.pool lease index bytes).bind
    intro ⟨p, answer⟩ outcome
    rcases outcome with ⟨refusal, e⟩ | ⟨rfl, -, same, puts⟩
    · cases e
      exact Checked.yields_pure.2 (.inl ⟨refusal, rfl⟩)
    · have core := congrArg Core.cursors same
      refine Checked.yields_pure.2 (.inr ⟨rfl, rfl, F, puts.uses, core, fun m H => ?_⟩)
      simp only [Known.after, found, Answer.ofUnit]
      exact H.puts_same puts same

theorem read_yields (W : s.Wf) (key length : Nat) :
    (s.run (.read key length)).Yields (Effect s (.read key length)) := by
  refine onEither_yields W rfl (fun b l found lease => ?_) fun v l found F lease => ?_
  · apply (Buffer.read_yields W.pool lease length).bind
    intro ⟨p, answer⟩ outcome
    rcases outcome with ⟨refusal, e⟩ | ⟨⟨data, rfl, -⟩, uses, core, same⟩
    · cases e
      exact Checked.yields_pure.2 (.inl ⟨refusal, rfl, .refl W.pool⟩)
    · have own := congrArg Core.cursors core
      exact Checked.yields_pure.2 (.inr ⟨rfl, uses, own, fun m H => H.uses uses same⟩)
  · apply (View.read_yields F W.pool lease length).bind
    intro answer outcome
    rcases outcome with ⟨refusal, rfl⟩ | ⟨data, rfl, fits, -⟩
    · exact Checked.yields_pure.2 (.inl ⟨refusal, rfl⟩)
    · have uses := Pool.Uses.refl W.pool lease
      exact Checked.yields_pure.2
        (.inr ⟨rfl, rfl, fits, uses, rfl, fun m H => H.uses uses fun _ => rfl⟩)

/-- Looking at a buffer is refused or changes nothing. -/
theorem bufferWorks_ofBytes (W : s.Wf) {command : Command} {b : Buffer} {l : Lease}
    (lease : (s.pool.core b.core).lease = some l) (answer : Answered ByteArray)
    (quiet : ∀ (m : Known) r, m.after s command r = m.ofLive s.pool)
    (still : ∀ (c : Cursors) answer, c.moved command answer = c) :
    BufferWorks s command b (s.pool, .ofBytes answer) := by
  cases answer with
  | error refusal => exact .inl ⟨refusal, rfl, .refl W.pool⟩
  | ok data =>
    have uses := Pool.Uses.refl W.pool lease
    refine .inr ⟨rfl, uses, (still ..).symm, fun m H => ?_⟩
    rw [quiet]
    exact H.uses uses fun _ => rfl

/-- Looking at a view is refused or changes nothing. -/
theorem viewWorks_ofBytes (W : s.Wf) {command : Command} {v : View} (F : v.Fits) {l : Lease}
    (lease : (s.pool.core v.core).lease = some l) (answer : Answered ByteArray)
    (quiet : ∀ (m : Known) r, m.after s command r = m.ofLive s.pool)
    (still : ∀ (c : Cursors) answer, c.moved command answer = c) :
    ViewWorks s command key v (s.pool, v, .ofBytes answer) := by
  cases answer with
  | error refusal => exact .inl ⟨refusal, rfl⟩
  | ok data =>
    have uses := Pool.Uses.refl W.pool lease
    refine .inr ⟨rfl, by rw [still]; rfl, F, uses, rfl, fun m H => ?_⟩
    rw [quiet]
    exact H.uses uses fun _ => rfl

theorem getBytes_yields (W : s.Wf) (key index length : Nat) :
    (s.run (.getBytes key index length)).Yields (Effect s (.getBytes key index length)) := by
  refine onEither_yields W rfl (fun b l found lease => ?_) fun v l found F lease => ?_
  · exact (Pool.getBytes_yields W.pool lease index length).bind fun answer _ =>
      Checked.yields_pure.2 (bufferWorks_ofBytes W lease answer (fun _ _ => rfl) fun _ _ => rfl)
  · exact (View.getBytes_yields F W.pool lease index length).bind fun answer _ =>
      Checked.yields_pure.2 (viewWorks_ofBytes W F lease answer (fun _ _ => rfl) fun _ _ => rfl)

theorem copyReadable_yields (W : s.Wf) (key : Nat) :
    (s.run (.copyReadable key)).Yields (Effect s (.copyReadable key)) := by
  refine onEither_yields W rfl (fun b l found lease => ?_) fun v l found F lease => ?_
  · exact (Buffer.copyReadable_yields W.pool lease).bind fun answer _ =>
      Checked.yields_pure.2 (bufferWorks_ofBytes W lease answer (fun _ _ => rfl) fun _ _ => rfl)
  · exact (View.copyReadable_yields F W.pool lease).bind fun answer _ =>
      Checked.yields_pure.2 (viewWorks_ofBytes W F lease answer (fun _ _ => rfl) fun _ _ => rfl)

/-- What a buffer in use tells of itself. -/
theorem bufferInfo_ok (W : p.Wf) {b : Buffer} {l : Lease} (lease : (p.core b.core).lease = some l) :
    ∃ info, bufferInfo p b = .ok info := by
  have fits := W.cores _ l lease
  have writable : (p.core b.core).writable = .ok (l.length - (p.core b.core).writer) := by
    rw [Core.writable, Core.capacity_eq lease, Word.sub_ok fits.inside]
  simp only [bufferInfo, Core.readable, Word.sub_ok fits.ordered, writable, Buffer.locator?,
    Core.bound_ok lease, Checked.ok_bind]
  exact ⟨_, rfl⟩

theorem info_yields (W : s.Wf) (key : Nat) : (s.run (.info key)).Yields (Effect s (.info key)) := by
  refine onEither_yields W rfl (fun b l found lease => ?_) fun v l found F lease => ?_
  · obtain ⟨info, e⟩ := bufferInfo_ok W.pool lease
    simp only [e, Checked.ok_bind]
    have uses := Pool.Uses.refl W.pool lease
    exact Checked.yields_pure.2 (.inr ⟨rfl, uses, rfl, fun m H => H.uses uses fun _ => rfl⟩)
  · simp only [View.readable, Word.sub_ok F.ordered, Checked.ok_bind]
    have uses := Pool.Uses.refl W.pool lease
    exact Checked.yields_pure.2 (.inr ⟨rfl, rfl, F, uses, rfl, fun m H => H.uses uses fun _ => rfl⟩)

end Session

end BufferPool
