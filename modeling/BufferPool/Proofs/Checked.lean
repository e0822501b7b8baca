import BufferPool.Word

/-!
# Computations that run through

`m.Yields post` is the total reading of a checked computation: no check fails, and the result is as
`post` describes it. Every operation of the pool gets one statement of this form, and a caller is
opened step by step with `Yields.bind`, citing the statements of what it calls.

`m.Gives post` is the partial reading: the result is as described if no check fails. It needs no invariant
for the checks to hold, and with a total reading of the same computation it says as much
(`Yields.and_gives`). `m.Agrees m' R` is the partial reading of two computations side by side.
-/

namespace BufferPool.Checked

variable {α β : Type} {m : Checked α} {f : α → Checked β} {post : α → Prop} {goal : β → Prop}

/-- No check fails, and the result is as described. -/
def Yields (m : Checked α) (post : α → Prop) : Prop := ∃ a, m = .ok a ∧ post a

@[simp] theorem yields_ok {a : α} : Yields (.ok a) post ↔ post a := by
  simp [Yields]

@[simp] theorem yields_pure {a : α} : Yields (pure a) post ↔ post a :=
  yields_ok

@[simp] theorem ok_bind {a : α} : ((.ok a : Checked α) >>= f) = f a := rfl

theorem Yields.bind (h : Yields m post) (next : ∀ a, post a → Yields (f a) goal) :
    Yields (m >>= f) goal := by
  obtain ⟨a, rfl, ha⟩ := h
  exact next a ha

theorem Yields.bind_ok {a : α} (h : m = .ok a) (next : Yields (f a) goal) :
    Yields (m >>= f) goal := by
  subst h
  exact next

theorem Yields.mono {weaker : α → Prop} (h : Yields m post) (le : ∀ a, post a → weaker a) :
    Yields m weaker := by
  obtain ⟨a, rfl, ha⟩ := h
  exact ⟨a, rfl, le a ha⟩

/-- What a closed computation was evaluated to is said of its result. -/
theorem eq_of_seen {a : α} {f : α → β} {seen : β} (evaluated : m.toOption.map f = some seen) (ok : m = .ok a) :
    f a = seen := by
  subst ok
  exact Option.some.inj evaluated

/-- A check that holds is passed. -/
theorem guard_ok {holds : Bool} {v : Violation} (h : holds = true) : guard holds v = .ok () := by
  simp [guard, h]

/-- A computation goes on behind a check that holds. -/
theorem Yields.guard {holds : Bool} {v : Violation} {f : Unit → Checked β} (h : holds = true)
    (next : Yields (f ()) goal) : Yields (Checked.guard holds v >>= f) goal :=
  .bind_ok (guard_ok h) next

/-! ## Partial readings -/

/-- If no check fails, the result is as described. -/
def Gives (m : Checked α) (post : α → Prop) : Prop := ∀ a, m = .ok a → post a

@[simp] theorem gives_ok {a : α} : Gives (.ok a) post ↔ post a := by
  simp [Gives]

@[simp] theorem gives_pure {a : α} : Gives (pure a) post ↔ post a :=
  gives_ok

@[simp] theorem gives_error {v : Violation} : Gives (.error v) post := nofun

theorem Gives.bind (h : Gives m post) (next : ∀ a, post a → Gives (f a) goal) : Gives (m >>= f) goal := by
  cases m with
  | error v => exact nofun
  | ok a => exact next a (h a rfl)

theorem Gives.bind_ok {a : α} (h : m = .ok a) (next : Gives (f a) goal) : Gives (m >>= f) goal := by
  subst h
  exact next

/-- A part of a computation whose result does not matter. -/
theorem Gives.skip (next : ∀ a, Gives (f a) goal) : Gives (m >>= f) goal :=
  Gives.bind (fun _ _ => True.intro) fun a _ => next a

theorem Gives.mono {weaker : α → Prop} (h : Gives m post) (le : ∀ a, post a → weaker a) : Gives m weaker :=
  fun a eq => le a (h a eq)

theorem Gives.and (h : Gives m post) {other : α → Prop} (g : Gives m other) :
    Gives m fun a => post a ∧ other a := fun a eq => ⟨h a eq, g a eq⟩

/-- Behind a check the computation goes on only if it holds. -/
theorem Gives.guard {holds : Bool} {v : Violation} {f : Unit → Checked β}
    (next : holds = true → Gives (f ()) goal) : Gives (Checked.guard holds v >>= f) goal := by
  unfold Checked.guard
  split
  · rename_i passed
    exact next passed
  · exact nofun

theorem Yields.gives (h : Yields m post) : Gives m post := by
  obtain ⟨a, rfl, ha⟩ := h
  exact gives_ok.2 ha

theorem Yields.and_gives (h : Yields m post) {other : α → Prop} (g : Gives m other) :
    Yields m fun a => post a ∧ other a := by
  obtain ⟨a, rfl, ha⟩ := h
  exact ⟨a, rfl, ha, g a rfl⟩

/-! ## Two computations -/

variable {α' β' : Type} {m' : Checked α'} {f' : α' → Checked β'} {R : α → α' → Prop} {S : β → β' → Prop}

/-- If neither computation fails a check, the results are related. -/
def Agrees (m : Checked α) (m' : Checked α') (R : α → α' → Prop) : Prop :=
  ∀ a a', m = .ok a → m' = .ok a' → R a a'

@[simp] theorem agrees_ok {a : α} {a' : α'} : Agrees (.ok a) (.ok a') R ↔ R a a' := by
  simp [Agrees]

@[simp] theorem agrees_pure {a : α} {a' : α'} : Agrees (pure a) (pure a') R ↔ R a a' :=
  agrees_ok

@[simp] theorem agrees_error {v : Violation} : Agrees (.error v) m' R := nofun

theorem Agrees.bind (h : Agrees m m' R) (next : ∀ a a', R a a' → Agrees (f a) (f' a') S) :
    Agrees (m >>= f) (m' >>= f') S := by
  cases m with
  | error v => exact nofun
  | ok a =>
    cases m' with
    | error v => exact nofun
    | ok a' => exact next a a' (h a a' rfl rfl)

/-- Parts of two computations whose results do not matter. -/
theorem Agrees.skip (next : ∀ a a', Agrees (f a) (f' a') S) : Agrees (m >>= f) (m' >>= f') S :=
  Agrees.bind (fun _ _ _ _ => True.intro) fun a a' _ => next a a'

/-- Two computations that begin in the same way. -/
theorem Agrees.step {f' : α → Checked β'} (next : ∀ a, Agrees (f a) (f' a) S) :
    Agrees (m >>= f) (m >>= f') S := by
  cases m with
  | error v => exact nofun
  | ok a => exact next a

theorem Agrees.and_gives (h : Agrees m m' R) (g : Gives m post) : Agrees m m' fun a a' => R a a' ∧ post a :=
  fun a a' eq eq' => ⟨h a a' eq eq', g a eq⟩

theorem Agrees.and_gives_right {post' : α' → Prop} (h : Agrees m m' R) (g : Gives m' post') :
    Agrees m m' fun a a' => R a a' ∧ post' a' := fun a a' eq eq' => ⟨h a a' eq eq', g a' eq'⟩

theorem Agrees.mono {R' : α → α' → Prop} (h : Agrees m m' R) (le : ∀ a a', R a a' → R' a a') :
    Agrees m m' R' := fun a a' eq eq' => le a a' (h a a' eq eq')

end BufferPool.Checked

namespace BufferPool.Word

theorem add_ok {a b : Nat} (h : a + b < bound) : add a b = .ok (a + b) :=
  add_eq_ok.2 ⟨rfl, h⟩

theorem sub_ok {a b : Nat} (h : b ≤ a) : sub a b = .ok (a - b) :=
  sub_eq_ok.2 ⟨h, rfl⟩

theorem mul_ok {a b : Nat} (h : a * b < bound) : mul a b = .ok (a * b) :=
  mul_eq_ok.2 ⟨rfl, h⟩

/-- A checked sum is the sum. -/
theorem add_gives (a b : Nat) : (add a b).Gives fun c => c = a + b :=
  fun _ sum => (add_eq_ok.1 sum).1.symm

/-- A checked difference is the difference. -/
theorem sub_gives (a b : Nat) : (sub a b).Gives fun c => c = a - b :=
  fun _ difference => (sub_eq_ok.1 difference).2.symm

end BufferPool.Word
