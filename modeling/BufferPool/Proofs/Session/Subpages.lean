import BufferPool.Proofs.Arena.Listings
import BufferPool.Proofs.Arena.References
import BufferPool.Proofs.Session.Pages

/-!
# What callers see of carved pages

The figures of a carved page count the leases on it (`Session.Accounted`), a reference that a caller keeps
reports the figures of its own page and of no other, and the lists of slot sizes tell how many pages have
room.
-/

namespace BufferPool

namespace Session

variable {s s' last : Session} {all : List Session} {commands : List Command}

/-! ## Slots -/

/-- The leases of slots of a page. -/
def leasesOn (s : Session) (chunk page : Nat) : List Lease := s.leases.filter (Lease.isSlotOf chunk page)

/-- The slots of a page that are not free are those of the leases on it, one each. -/
structure Accounted (s : Session) (u : Subpage) : Prop where
  count : u.available + (s.leasesOn u.chunk u.page.toNat).length = u.slots
  each : ∀ l ∈ s.leasesOn u.chunk u.page.toNat, l.maxLength = u.slotSize ∧ ∃ k < u.slots, l.slot? = some k
  apart : (s.leasesOn u.chunk u.page.toNat).Pairwise fun l k => l.slot? ≠ k.slot?

theorem Wf.accounted (W : s.Wf) (claimed : s.pool.Claimed) {x : SubpageId} {u : Subpage}
    (hu : s.pool.arena.active? x = some u) (some : u.slotSize ≠ 0) : s.Accounted u := by
  have same : s.leasesOn u.chunk u.page.toNat = s.pool.leasesOn u.chunk u.page.toNat := by
    rw [leasesOn, W.leases_eq, Pool.leasesOn]
  constructor
  all_goals rw [same]
  · exact claimed.length_leasesOn W.pool hu some
  · intro l mem
    obtain ⟨size, k, slot, lends⟩ := W.pool.of_leasesOn hu mem
    exact ⟨size, k, (Subpage.mem_leased.1 (lends.mem some)).1, slot⟩
  · exact W.pool.pairwise_leasesOn hu some

/-! ## References -/

/-- How often a node was vacated in a row of sessions. -/
def vacations (n : Nat) : (all : List Session) → Nat
  | s :: s' :: rest => s.pool.arena.vacated s'.pool.arena n + vacations n (s' :: rest)
  | _ => 0

/-- A command vacates a node once at most. -/
theorem vacations_le_length (n : Nat) : ∀ all : List Session, vacations n all ≤ all.length
  | [] => Nat.le_refl _
  | [_] => Nat.zero_le _
  | s :: s' :: rest => by
    have others := vacations_le_length n (s' :: rest)
    have once : s.pool.arena.vacated s'.pool.arena n ≤ 1 := by
      unfold Arena.vacated
      split
      · exact Nat.zero_le 1
      · exact Nat.le_refl 1
    rw [vacations, List.length_cons]
    omega

theorem length_stages (staged : s.stages commands = .ok all) : all.length = commands.length + 1 := by
  induction commands generalizing s all with
  | nil =>
    cases staged
    rfl
  | cons command rest ih =>
    rw [stages] at staged
    cases e : s.step command with
    | error v => rw [e] at staged; cases staged
    | ok r =>
      obtain ⟨s1, answer⟩ := r
      rw [e, Checked.ok_bind] at staged
      cases staged' : s1.stages rest with
      | error v => simp only [staged'] at staged; cases staged
      | ok others =>
        simp only [staged'] at staged
        cases staged
        rw [List.length_cons, List.length_cons, ih staged']

/-- What became of a subpage in a row of sessions. -/
theorem Trail.traces (t : s.Trail all last) {was : Subpage} {id : SubpageId} {times : Nat}
    (T : Arena.Traces was id times s.pool.arena) :
    Arena.Traces was id (times + vacations id.node all) last.pool.arena := by
  induction t generalizing times with
  | done _ => exact T
  | step _ course rest ih =>
    have T' := ih (T.ages course.ages)
    obtain ⟨others, rfl⟩ := rest.head
    rwa [Nat.add_assoc] at T'

/-- What a caller reads from the references that it keeps: the present figures of their subpages, from chunks
that are there. -/
structure Reads (s : Session) (key : Nat) (ids : List SubpageId) : Prop where
  figures : (s.step (.held key)).Yields fun r =>
    ∃ list, r.2 = .subpages list ∧ list.map Prod.fst = ids.map s.pool.arena.metric
  present : ids ≠ [] → s.closed = false

theorem subpageList_metrics {p : Pool} (W : p.Wf) (ids : List SubpageId) :
    ∃ list, subpageList p ids = .ok list ∧ list.map Prod.fst = ids.map p.arena.metric := by
  induction ids with
  | nil => exact ⟨[], rfl, rfl⟩
  | cons id rest ih =>
    obtain ⟨text, et⟩ := W.arena.subpageText_ok id
    obtain ⟨list, el, metrics⟩ := ih
    refine ⟨(p.arena.metric id, text) :: list, by simp only [subpageList, et, el, Checked.ok_bind]; rfl, ?_⟩
    rw [List.map_cons, List.map_cons, metrics]

theorem Sound.reads (S : s.Sound) {key : Nat} {ids : List SubpageId}
    (kept : s.handles.get? key = some (.subpages ids)) : s.Reads key ids where
  figures := by
    obtain ⟨list, e, metrics⟩ := subpageList_metrics S.wf.pool ids
    refine ⟨(s.settle, .subpages list), ?_, list, rfl, metrics⟩
    change (s.held key >>= fun r => pure (r.1.settle, r.2)) = _
    simp only [held, kept, e, Checked.ok_bind]
    rfl
  present some := by
    have referenced := isReferenced_of_mem (h := .subpages ids) (Registry.mem_values kept)
      (by cases ids with
        | nil => exact absurd rfl some
        | cons _ _ => rfl)
    cases closed : s.closed with
    | false => rfl
    | true =>
      rw [S.ended closed] at referenced
      cases referenced

/-- What callers see of the carved pages of a session. -/
structure PagesAccounted (s : Session) : Prop where
  slots : ∀ x ∈ s.pool.arena.subpages, ∀ u, s.pool.arena.table.get? x = some u → u.active = true →
    u.slotSize ≠ 0 → s.Accounted u
  reads : ∀ key ids, s.handles.get? key = some (.subpages ids) → s.Reads key ids

theorem Sound.pagesAccounted (S : s.Sound) (claimed : s.pool.Claimed) : s.PagesAccounted where
  slots _ _ _ hu active some := S.wf.accounted claimed (Arena.active?_eq_some.2 ⟨hu, active⟩) some
  reads _ _ kept := S.reads kept

/-! ## Runs -/

section

variable {config : PoolConfig} {supply : Supply} {pool : Pool} {before after : List Command}

/-- At the end of any run the lists of slot sizes are exact. -/
theorem play_lists_exact (created : Pool.createOn supply config = .ok pool)
    (lossless : config.pageSize * 2 ^ config.maxOrder < Word.bound)
    (isPublic : ∀ command ∈ commands, command.isPublic = true) :
    ((ofPool pool).play commands).Yields fun s => s.pool.arena.ListsExact :=
  (play_yields (sound_ofPool created lossless) commands isPublic).mono fun _ sound =>
    sound.wf.pool.arena.listsExact

/-- The default configuration, and two buffers of one size. -/
theorem play_lists_exact_default :
    ((ofPool (.ofConfig {} .full)).play [.buffer 0 100, .buffer 1 100, .drop 0]).Yields
      fun s => s.pool.arena.ListsExact :=
  play_lists_exact (show Pool.createOn .full {} = .ok (.ofConfig {} .full) from rfl) (by decide)
    (by decide)

/-- At any point of a run the figures of the carved pages count the leases on them. References to the pages
that were there at an earlier point report their figures as long as they are there, and nothing afterwards,
provided that no node was vacated too often in between. -/
theorem play_pages_accounted (created : Pool.createOn supply config = .ok pool)
    (lossless : config.pageSize * 2 ^ config.maxOrder < Word.bound)
    (isPublic : ∀ command ∈ before ++ after, command.isPublic = true) :
    ((ofPool pool).play before).Yields fun s => (s.stages after).Yields fun all =>
      ∃ last, s.play after = .ok last ∧ last.PagesAccounted ∧
        ((∀ n, vacations n all < 2 ^ 32) → ∀ x ∈ s.pool.arena.subpages, ∀ u,
          s.pool.arena.table.get? x = some u → last.pool.arena.Reports u x) := by
  have S := sound_ofPool created lossless
  obtain ⟨-, rfl⟩ := eq_ofConfig created
  apply (play_invariant S before (fun c hc => isPublic c (List.mem_append_left _ hc))
    (fun W turn claimed => claimed.turn W turn) (claimed_ofConfig S.wf.pool).1).mono
  intro s ⟨sound, claimed⟩
  apply (stages_yields sound after fun c hc => isPublic c (List.mem_append_right _ hc)).mono
  intro all ⟨last, played, trail⟩
  obtain ⟨sound', claimed'⟩ := trail.invariant (fun W turn claimed => claimed.turn W turn) claimed
  refine ⟨last, played, sound'.pagesAccounted claimed', fun few x _ u hu => ?_⟩
  have traces := trail.traces (sound.wf.pool.arena.traces hu)
  rw [Nat.zero_add] at traces
  exact traces.reports sound'.wf.pool.arena (few _)

/-- A pool with two pages in each chunk. -/
def pairedPages : PoolConfig := { pageSize := 4096, maxOrder := 1 }

/-- References to three pages in two chunks, each with two slots in use. Then one slot of the first page is left
in use, the second page is given back, and the third one goes with its chunk. -/
theorem play_pages_accounted_paired : ∃ s all last,
    (ofPool (.ofConfig pairedPages .full)).play [.fill 0 6 2048, .hold 6] = .ok s ∧
      s.stages [.drop 0, .dropRange 2 6 1] = .ok all ∧ s.play [.drop 0, .dropRange 2 6 1] = .ok last ∧
      (last.leasesOn 1 0).length = 1 ∧
      s.pool.arena.subpages.map last.pool.arena.metric = [⟨some 2, some 1, some 2048, 4096⟩,
        ⟨none, none, none, 4096⟩, ⟨none, none, none, 4096⟩] ∧
      last.PagesAccounted ∧ ∀ x ∈ s.pool.arena.subpages, ∀ u, s.pool.arena.table.get? x = some u →
        last.pool.arena.Reports u x := by
  obtain ⟨s, played, all, staged, last, ended, accounted, reports⟩ := play_pages_accounted
    (show Pool.createOn .full pairedPages = .ok (.ofConfig pairedPages .full) from rfl) (by decide)
    (show ∀ command ∈ ([.fill 0 6 2048, .hold 6] ++ [.drop 0, .dropRange 2 6 1] : List Command),
      command.isPublic = true by decide)
  have seen : ((ofPool (.ofConfig pairedPages .full)).play [.fill 0 6 2048, .hold 6]).toOption.map (fun s =>
      (s.play [.drop 0, .dropRange 2 6 1]).toOption.map fun last =>
        ((last.leasesOn 1 0).length, s.pool.arena.subpages.map last.pool.arena.metric)) =
      some (some (1, [⟨some 2, some 1, some 2048, 4096⟩, ⟨none, none, none, 4096⟩,
        ⟨none, none, none, 4096⟩])) := by
    decide +kernel
  have told := Checked.eq_of_seen seen played
  have now := Checked.eq_of_seen told ended
  rw [Prod.mk.injEq] at now
  obtain ⟨leases, metrics⟩ := now
  refine ⟨s, all, last, played, staged, ended, leases, metrics, accounted, reports fun n => ?_⟩
  -- Three sessions, and a command vacates a node once at most.
  have few := vacations_le_length n all
  rw [length_stages staged] at few
  exact Nat.lt_of_le_of_lt few (by decide)

end

end Session

end BufferPool
