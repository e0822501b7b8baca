import BufferPool.Proofs.Arena.Packing
import BufferPool.Proofs.Arena.Place
import BufferPool.Proofs.Locator.Code
import BufferPool.Proofs.Session.Run

/-!
# Placement over a run

At every state of a run, a request of at most a chunk gets its lease from the place that `Arena.Places` says,
or is refused because there is no such place. The place is packed into a locator, and nothing is lost on the
way: targets are packed without loss (`Locator.Lossless`), and the numbers that the next lease packs fit the
fields of a locator (`Arena.PacksExactly`).
-/

namespace BufferPool

namespace Arena

variable {a a' : Arena} {capacity : Nat} {answer : Answered (Option Lease)}

/-- Counting does not change where a request is placed. -/
theorem places_of_count {event : Event} (h : (a.count event).Places capacity a' answer) :
    a.Places capacity a' answer := by
  have needs : ∀ {length}, (a.count event).Needs capacity length → a.Needs capacity length := fun needs => by
    cases needs with
    | slot list empty => exact .slot list empty
    | run list => exact .run list
  cases h with
  | listed list ring named chunk page slot free same => exact .listed list ring named chunk page slot free same
  | paged taken takes held chunk start =>
    have spot : ∀ {length index page chunks}, (a.count event).Spot length index page chunks →
        a.Spot length index page chunks := fun spot => by
      cases spot with
      | held chunk first earlier => exact .held chunk first earlier
      | added crowded more => exact .added crowded more
    exact .paged (needs taken) ⟨spot takes.spot, takes.kept, takes.used⟩ held chunk start
  | exhausted taken crowded full same => exact .exhausted (needs taken) crowded full same

end Arena

namespace Pool

variable {p : Pool} {capacity maxCapacity : Nat}

/-- A core gets the lease that the arena grants, or the request is refused as the arena refuses it. -/
theorem allocate_lease (W : p.Wf) (ceiling : capacity ≤ maxCapacity) :
    (p.allocate capacity maxCapacity).Yields fun r => ∃ answer,
      (p.obtainCore maxCapacity).1.arena.lease capacity = .ok (r.1.arena, answer) ∧
        r.2.map (fun id => (r.1.core id).lease) = answer.map some := by
  unfold allocate
  rw [if_neg (Nat.not_lt.2 ceiling)]
  have obtains := obtains_obtainCore W maxCapacity
  generalize p.obtainCore maxCapacity = made at obtains
  obtain ⟨p1, id⟩ := made
  have free : (p1.core id).lease = none := by rw [obtains.core]
  obtain ⟨⟨a, answer⟩, leased, outcome⟩ := Arena.lease_yields obtains.wf.arena capacity
  rcases outcome with ⟨refusal, a', rfl, refused, rfl⟩ | ⟨l, rfl, grants, -⟩
  · have same := refused.unaffected
    have wf : ({ p1 with arena := a'.count .failed } : Pool).Wf :=
      obtains.wf.sameBooks same.sameBooks same.activeLeases rfl (fun _ => rfl) rfl
    have bound : p1.bindNew id capacity = .ok ({ p1 with arena := a'.count .failed }, .error refusal) := by
      rw [bindNew, leased]
      rfl
    refine .bind_ok bound ((park_yields wf obtains.inside free obtains.busy).bind ?_)
    intro p2 parks
    exact Checked.yields_pure.2 ⟨.error refusal, by rw [leased, parks.arena], rfl⟩
  · have core := grants.backs.bind_ok grants.wf (by rw [grants.length]; exact grants.fits) free
    have bound : p1.bindNew id capacity = .ok
        ({ p1 with arena := a }.modifyCore id fun _ => { p1.core id with lease := some l }, .ok l) := by
      rw [bindNew, leased, Checked.ok_bind]
      simp only [core, Checked.ok_bind]
      rfl
    have mine := (core_modifyCore (p := { p1 with arena := a }) obtains.inside
      (fun _ => { p1.core id with lease := some l }) id).trans (if_pos rfl)
    refine .bind_ok bound (Checked.yields_pure.2 ⟨.ok l, leased, ?_⟩)
    exact congrArg Except.ok (congrArg Core.lease mine)

/-- A request of at most a chunk is placed. -/
theorem allocate_places (W : p.Wf) (ceiling : capacity ≤ maxCapacity) (within : capacity ≤ p.config.chunkSize)
    (supplied : p.arena.heap.refuses p.arena.heap.attempts p.config.chunkSize = false) :
    (p.allocate capacity maxCapacity).Yields fun r =>
      p.arena.Places capacity r.1.arena (r.2.map fun id => (r.1.core id).lease) := by
  apply (allocate_lease W ceiling).mono
  intro r ⟨answer, leased, same⟩
  have wf := (obtains_obtainCore W maxCapacity).wf.arena
  obtain ⟨r', leased', places⟩ := Arena.lease_places wf within supplied
  cases leased.symm.trans leased'
  rw [same]
  exact Arena.places_of_count places

end Pool

namespace Session

section

variable {config : PoolConfig} {supply : Supply} {pool : Pool} {commands : List Command}

/-- At every state of a run, a request of at most a chunk is placed exactly, as long as memory for a chunk can
be had: it is granted if there is a place for it or for another chunk, and else it is exhausted. -/
theorem play_places_requests (created : Pool.createOn supply config = .ok pool)
    (lossless : config.pageSize * 2 ^ config.maxOrder < Word.bound)
    (isPublic : ∀ command ∈ commands, command.isPublic = true) :
    ((ofPool pool).play commands).Yields fun s => ∀ capacity maxCapacity, capacity ≤ maxCapacity →
      capacity ≤ config.chunkSize →
      s.pool.arena.heap.refuses s.pool.arena.heap.attempts config.chunkSize = false →
      (s.pool.allocate capacity maxCapacity).Yields fun r =>
        s.pool.arena.Places capacity r.1.arena (r.2.map fun id => (r.1.core id).lease) := by
  have start : pool.config = config := by
    obtain ⟨-, rfl⟩ := eq_ofConfig created
    rfl
  apply (play_invariant (P := fun p => p.config = config) (sound_ofPool created lossless) commands isPublic
    (fun _ turn same => turn.steady.config.trans same) start).mono
  rintro s ⟨sound, same⟩ capacity maxCapacity ceiling within supplied
  rw [← same] at within supplied
  exact Pool.allocate_places sound.wf.pool ceiling within supplied

/-- A pool that has no more than two pages, which are neighbours. -/
def twoPages : PoolConfig := { pageSize := 4096, maxOrder := 1, maxChunks := 1 }

/-- Of two pages the first is free again, and the other one has a slot in use. A further slot comes from there,
a page is found in front of it, and both pages cannot be had. -/
theorem play_places_requests_fragmented : ∃ s,
    (ofPool (.ofConfig twoPages .full)).play [.buffer 0 4096, .buffer 1 100, .drop 0] = .ok s ∧
      (∃ r, s.pool.allocate 112 200 = .ok r ∧ s.pool.arena.Places 112 r.1.arena
        (.ok (some ⟨⟨1, 0, 8192, false⟩, .pooled ⟨0x4000000100000001⟩, 4208, 112, 112⟩))) ∧
      (∃ r, s.pool.allocate 4000 4000 = .ok r ∧ s.pool.arena.Places 4000 r.1.arena
        (.ok (some ⟨⟨1, 0, 8192, false⟩, .pooled ⟨0⟩, 0, 4000, 4096⟩))) ∧
      ∃ r, s.pool.allocate 8192 8192 = .ok r ∧
        s.pool.arena.Places 8192 r.1.arena (.error (.exhausted 1 8192)) := by
  obtain ⟨s, played, places⟩ := play_places_requests
    (show Pool.createOn .full twoPages = .ok (.ofConfig twoPages .full) from rfl) (by decide)
    (show ∀ command ∈ [.buffer 0 4096, .buffer 1 100, .drop 0], Command.isPublic command = true by decide)
  have seen : ((ofPool (.ofConfig twoPages .full)).play
      [.buffer 0 4096, .buffer 1 100, .drop 0]).toOption.map (fun s =>
        (s.pool.arena.heap.refuses s.pool.arena.heap.attempts 8192,
          [(s.pool.allocate 112 200).toOption.map fun r => r.2.map fun id => (r.1.core id).lease,
            (s.pool.allocate 4000 4000).toOption.map fun r => r.2.map fun id => (r.1.core id).lease,
            (s.pool.allocate 8192 8192).toOption.map fun r => r.2.map fun id => (r.1.core id).lease])) =
      some (false, [some (.ok (some ⟨⟨1, 0, 8192, false⟩, .pooled ⟨0x4000000100000001⟩, 4208, 112, 112⟩)),
        some (.ok (some ⟨⟨1, 0, 8192, false⟩, .pooled ⟨0⟩, 0, 4000, 4096⟩)),
        some (.error (.exhausted 1 8192))]) := by
    decide +kernel
  have now := Checked.eq_of_seen seen played
  simp only [Prod.mk.injEq, List.cons.injEq] at now
  obtain ⟨supplied, slot, page, neither, -⟩ := now
  obtain ⟨r₁, made₁, placed₁⟩ := places 112 200 (by decide) (by decide) supplied
  obtain ⟨r₂, made₂, placed₂⟩ := places 4000 4000 (by decide) (by decide) supplied
  obtain ⟨r₃, made₃, placed₃⟩ := places 8192 8192 (by decide) (by decide) supplied
  rw [Checked.eq_of_seen slot made₁] at placed₁
  rw [Checked.eq_of_seen page made₂] at placed₂
  rw [Checked.eq_of_seen neither made₃] at placed₃
  exact ⟨s, played, ⟨r₁, made₁, placed₁⟩, ⟨r₂, made₂, placed₂⟩, r₃, made₃, placed₃⟩

/-- Locators are a code, and at every state of a run the numbers that are packed into one fit. -/
theorem play_packs_exactly (created : Pool.createOn supply config = .ok pool)
    (lossless : config.pageSize * 2 ^ config.maxOrder < Word.bound)
    (isPublic : ∀ command ∈ commands, command.isPublic = true) :
    Locator.Lossless ∧ ((ofPool pool).play commands).Yields fun s => s.pool.arena.PacksExactly := by
  refine ⟨Locator.lossless, ?_⟩
  apply (play_yields (sound_ofPool created lossless) commands isPublic).mono
  intro s sound
  exact sound.wf.pool.arena.packsExactly

/-- The default configuration, a slot and a run. -/
theorem play_packs_exactly_default : Locator.Lossless ∧
    ((ofPool (.ofConfig {} .full)).play [.allocate 0 100 100, .allocate 1 20000 20000]).Yields fun s =>
      s.pool.arena.PacksExactly :=
  play_packs_exactly (show Pool.createOn .full {} = .ok (.ofConfig {} .full) from rfl) (by decide) (by decide)

end

end Session

end BufferPool
