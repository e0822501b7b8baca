import BufferPool.Proofs.Pool.Basic
import Mathlib.Logic.Relation

/-!
# The course of the leases

An operation on the pool leaves every lease where it is (`Pool.Rests`), or gives a core a lease
(`Pool.Gains`), takes one from a core (`Pool.Loses`), or exchanges the one that a core has
(`Pool.Exchanges`). A request of a caller is made of such turns in one of three ways (`Pool.Course`):
leases are granted one after the other, or one is exchanged, or leases are given up one after the other.

Since nothing is granted once something was given up, a subpage that a request removes stays removed until
the request is through.
-/

namespace BufferPool

/-- A lease without the length in use. -/
def Lease.region (l : Lease) : Lease := { l with length := l.maxLength }

/-- The region that a core has. -/
def Core.region? (c : Core) : Option Lease := c.lease.map Lease.region

namespace Core

variable {c d : Core} {l r : Lease}

theorem region?_eq (h : c.lease = some l) : c.region? = some l.region := by
  rw [region?, h]
  rfl

theorem region?_none (h : c.lease = none) : c.region? = none := by
  rw [region?, h]
  rfl

theorem region?_congr (h : c.lease = d.lease) : c.region? = d.region? := by
  rw [region?, h, region?]

theorem region?_eq_none : c.region? = none ↔ c.lease = none := Option.map_eq_none_iff

theorem region?_eq_some : c.region? = some r ↔ ∃ l, c.lease = some l ∧ l.region = r :=
  Option.map_eq_some_iff

end Core

namespace Pool

variable {p p' p'' : Pool} {id : CoreId} {l old new : Lease}

/-- Every lease stays where it is. -/
structure Rests (p p' : Pool) : Prop extends Steady p p' where
  regions : ∀ i, (p'.core i).region? = (p.core i).region?
  arena : p.arena.SameLeases p'.arena
  moves : p'.moves = p.moves

/-- A core gets a lease. -/
structure Gains (p : Pool) (id : CoreId) (l : Lease) (p' : Pool) : Prop extends Steady p p' where
  free : (p.core id).lease = none
  mine : (p'.core id).lease = some l
  others : ∀ i, i ≠ id → (p'.core i).region? = (p.core i).region?
  adds : p.arena.Adds l p'.arena
  moves : p'.moves = p.moves

/-- A core gives its lease up. -/
structure Loses (p : Pool) (id : CoreId) (l : Lease) (p' : Pool) : Prop extends Steady p p' where
  bound : (p.core id).lease = some l
  gone : (p'.core id).lease = none
  others : ∀ i, i ≠ id → (p'.core i).region? = (p.core i).region?
  removes : p.arena.Removes l p'.arena
  moves : p'.moves = p.moves

/-- A core exchanges its lease; for a moment it has both. -/
structure Exchanges (p : Pool) (id : CoreId) (old new : Lease) (p' : Pool) : Prop
    extends Steady p p' where
  bound : (p.core id).lease = some old
  mine : (p'.core id).region? = some new.region
  others : ∀ i, i ≠ id → (p'.core i).region? = (p.core i).region?
  between : ∃ a : Arena, a.Wf ∧ p.arena.Adds new a ∧ a.Removes old p'.arena
  moves : p'.moves = p.moves + 1

/-- Leases are granted one after the other. -/
abbrev Fills : Pool → Pool → Prop :=
  Relation.ReflTransGen fun p p' => p.Rests p' ∨ ∃ id l, p.Gains id l p'

/-- Leases are given up one after the other. -/
abbrev Drains : Pool → Pool → Prop :=
  Relation.ReflTransGen fun p p' => p.Rests p' ∨ ∃ id l, p.Loses id l p'

/-- How a request changes the leases. -/
inductive Course (p p' : Pool) : Prop where
  | fills (turns : p.Fills p')
  | exchanges {id : CoreId} {old new : Lease} (turn : p.Exchanges id old new p')
  | drains (turns : p.Drains p')

theorem Rests.refl (W : p.Wf) : p.Rests p := ⟨.refl W, fun _ => rfl, .refl _, rfl⟩

/-- Resting first makes no difference to a gain. -/
theorem Rests.gains (h : p.Rests p') (g : p'.Gains id l p'') : p.Gains id l p'' where
  toSteady := h.toSteady.trans g.toSteady
  free := Core.region?_eq_none.1 ((h.regions id).symm.trans (Core.region?_none g.free))
  mine := g.mine
  others i ne := (g.others i ne).trans (h.regions i)
  adds := g.adds.congr h.arena (.refl _)
  moves := g.moves.trans h.moves

/-- Resting first makes no difference to a loss. -/
theorem Rests.loses (h : p.Rests p') (bound : (p.core id).lease = some l) (g : p'.Loses id l p'') :
    p.Loses id l p'' where
  toSteady := h.toSteady.trans g.toSteady
  bound := bound
  gone := g.gone
  others i ne := (g.others i ne).trans (h.regions i)
  removes := g.removes.congr h.arena (.refl _)
  moves := g.moves.trans h.moves

/-- The cores are as before, and so are the leases. -/
theorem rests_of_cores (steady : p.Steady p') (cores : ∀ i, p'.core i = p.core i)
    (arena : p.arena.SameLeases p'.arena) (moves : p'.moves = p.moves) : p.Rests p' where
  toSteady := steady
  regions i := by rw [cores]
  arena := arena
  moves := moves

theorem Exchanges.rests (e : p.Exchanges id old new p') (h : p'.Rests p'') :
    p.Exchanges id old new p'' where
  toSteady := e.toSteady.trans h.toSteady
  bound := e.bound
  mine := (h.regions id).trans e.mine
  others i ne := (h.regions i).trans (e.others i ne)
  between := by
    obtain ⟨a, wf, adds, removes⟩ := e.between
    exact ⟨a, wf, adds, removes.congr (.refl a) h.arena⟩
  moves := h.moves.trans e.moves

theorem Rests.course (h : p.Rests p') : p.Course p' := .fills (.single (.inl h))

theorem Gains.course (h : p.Gains id l p') : p.Course p' := .fills (.single (.inr ⟨id, l, h⟩))

/-- A request is not over before the pool has come to rest. -/
theorem Course.rests (c : p.Course p') (h : p'.Rests p'') : p.Course p'' := by
  cases c with
  | fills turns => exact .fills (turns.tail (.inl h))
  | exchanges turn => exact .exchanges (turn.rests h)
  | drains turns => exact .drains (turns.tail (.inl h))

/-! ## Invariants of a course -/

/-- Any turn. -/
inductive Turn (p p' : Pool) : Prop where
  | rests (turn : p.Rests p')
  | gains {id : CoreId} {l : Lease} (turn : p.Gains id l p')
  | loses {id : CoreId} {l : Lease} (turn : p.Loses id l p')
  | exchanges {id : CoreId} {old new : Lease} (turn : p.Exchanges id old new p')

theorem Turn.steady (t : p.Turn p') : p.Steady p' := by
  cases t with
  | rests turn => exact turn.toSteady
  | gains turn => exact turn.toSteady
  | loses turn => exact turn.toSteady
  | exchanges turn => exact turn.toSteady

theorem Course.turns (c : p.Course p') : Relation.ReflTransGen Turn p p' := by
  cases c with
  | fills turns =>
    exact turns.lift id fun _ _ turn => turn.elim .rests fun ⟨_, _, gain⟩ => .gains gain
  | exchanges turn => exact .single (.exchanges turn)
  | drains turns =>
    exact turns.lift id fun _ _ turn => turn.elim .rests fun ⟨_, _, loss⟩ => .loses loss

/-- What every turn of a well-formed pool keeps, a course keeps. -/
theorem Course.invariant {P : Pool → Prop} (c : p.Course p') (W : p.Wf)
    (step : ∀ {p p' : Pool}, p.Wf → p.Turn p' → P p → P p') (h : P p) : P p' := by
  have both : p'.Wf ∧ P p' := by
    have turns := c.turns
    clear c
    induction turns with
    | refl => exact ⟨W, h⟩
    | tail _ turn ih => exact ⟨turn.steady.wf, step ih.1 turn ih.2⟩
  exact both.2

/-! ## Ageing -/

/-- Nothing is removed while leases are granted. -/
theorem Fills.grows (turns : p.Fills p') : p.arena.Grows p'.arena := by
  induction turns with
  | refl => exact .refl _
  | tail _ turn ih =>
    rcases turn with rest | ⟨id, l, gain⟩
    · exact ih.trans rest.arena.grows
    · exact ih.trans gain.adds.grows

/-- Nothing is added while leases are given up. -/
theorem Drains.shrinks (turns : p.Drains p') : p.arena.Shrinks p'.arena := by
  induction turns with
  | refl => exact .refl _
  | tail _ turn ih =>
    rcases turn with rest | ⟨id, l, loss⟩
    · exact ih.trans rest.arena.shrinks
    · exact ih.trans loss.removes.shrinks

/-- A request removes nothing that it has added. -/
theorem Course.ages (c : p.Course p') : p.arena.Ages p'.arena := by
  cases c with
  | fills turns => exact turns.grows.ages
  | exchanges turn =>
    obtain ⟨a, -, adds, removes⟩ := turn.between
    exact ⟨a, adds.grows, removes.shrinks⟩
  | drains turns => exact turns.shrinks.ages

theorem Turn.tends (t : p.Turn p') : p.arena.Tends p'.arena := by
  cases t with
  | rests turn => exact turn.arena.tends
  | gains turn => exact turn.adds.tends
  | loses turn => exact turn.removes.tends
  | exchanges turn =>
    obtain ⟨a, -, adds, removes⟩ := turn.between
    exact adds.tends.trans removes.tends

theorem Course.tends (c : p.Course p') : p.arena.Tends p'.arena := by
  have turns := c.turns
  clear c
  induction turns with
  | refl => exact Arena.tends_of_chunks rfl rfl id
  | tail _ turn ih => exact ih.trans turn.tends

/-! ## Leases that come back -/

/-- Nothing comes back while leases are granted. -/
theorem Fills.returned (turns : p.Fills p') :
    p'.arena.counters.returned = p.arena.counters.returned ∧ p'.moves = p.moves ∧
      ∀ i r, (p.core i).region? = some r → (p'.core i).region? = some r := by
  induction turns with
  | refl => exact ⟨rfl, rfl, fun _ _ h => h⟩
  | tail _ turn ih =>
    obtain ⟨returned, moves, kept⟩ := ih
    rcases turn with rest | ⟨id, l, gain⟩
    · exact ⟨rest.arena.returned.trans returned, rest.moves.trans moves,
        fun i r h => (rest.regions i).trans (kept i r h)⟩
    · refine ⟨gain.adds.returned.trans returned, gain.moves.trans moves, fun i r h => ?_⟩
      have before := kept i r h
      rw [gain.others i, before]
      intro equal
      subst equal
      rw [Core.region?_none gain.free] at before
      cases before

/-- The cores that had a lease and have none any more. -/
def freed (p p' : Pool) : Finset CoreId :=
  (Finset.range p.store.cores.size).filter fun i =>
    (p.core i).region?.isSome ∧ (p'.core i).region?.isNone

theorem mem_freed {i : CoreId} :
    i ∈ p.freed p' ↔ (p.core i).region?.isSome ∧ (p'.core i).region?.isNone := by
  rw [freed, Finset.mem_filter, Finset.mem_range, and_iff_right_iff_imp]
  intro was
  obtain ⟨r, hr⟩ := Option.isSome_iff_exists.1 was.1
  obtain ⟨l, lease, -⟩ := Core.region?_eq_some.1 hr
  exact lt_size_of_bound lease

/-- While leases are given up, one comes back for each core that is freed, and the others stay. -/
theorem Drains.returned (turns : p.Drains p') :
    p'.arena.counters.returned = p.arena.counters.returned + (p.freed p').card ∧
      p'.moves = p.moves ∧ ∀ i r, (p'.core i).region? = some r → (p.core i).region? = some r := by
  induction turns with
  | refl =>
    have none : p.freed p = ∅ := Finset.eq_empty_of_forall_notMem fun i hi => by
      obtain ⟨bound, free⟩ := mem_freed.1 hi
      rw [Option.isNone_iff_eq_none.1 free] at bound
      cases bound
    rw [none]
    exact ⟨rfl, rfl, fun _ _ h => h⟩
  | @tail p1 p2 _ turn ih =>
    obtain ⟨returned, moves, kept⟩ := ih
    rcases turn with rest | ⟨id, l, loss⟩
    · have same : p.freed p2 = p.freed p1 := Finset.ext fun i => by
        rw [mem_freed, mem_freed, rest.regions]
      rw [same]
      exact ⟨rest.arena.returned.trans returned, rest.moves.trans moves,
        fun i r h => kept i r ((rest.regions i).symm.trans h)⟩
    · have bound := Core.region?_eq loss.bound
      have gone := Core.region?_none loss.gone
      have more : p.freed p2 = insert id (p.freed p1) := Finset.ext fun i => by
        rw [Finset.mem_insert, mem_freed, mem_freed]
        by_cases here : i = id
        · simp [here, gone, kept id _ bound]
        · simp [here, loss.others i here]
      have new : id ∉ p.freed p1 := fun mem => by
        have free := (mem_freed.1 mem).2
        rw [bound] at free
        cases free
      refine ⟨?_, loss.moves.trans moves, fun i r h => ?_⟩
      · rw [loss.removes.returned, returned, more, Finset.card_insert_of_notMem new]
        rfl
      · have ne : i ≠ id := by
          intro equal
          subst equal
          rw [gone] at h
          cases h
        exact kept i r ((loss.others i ne).symm.trans h)

end Pool

end BufferPool
