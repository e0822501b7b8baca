import BufferPool.Proofs.Session.Pages

/-!
# Chunks over a run

A chunk that nobody uses is given up unless it is the only one, and the last one is never given up. The
numbers of chunks tell all chunks apart, those of single leases as well, and what is carved from a chunk goes
with it: neither the pages nor the lists name anything of a chunk that is gone (`Session.KeepsChunks`).
-/

namespace BufferPool

/-- The number of a chunk that a lease has for itself. -/
def Lease.ownChunk? (l : Lease) : Option Nat := if l.location = .unpooled then some l.chunk.id else none

theorem Lease.ownChunk?_eq_some {l : Lease} {n : Nat} :
    l.ownChunk? = some n ↔ l.location = .unpooled ∧ l.chunk.id = n := by
  rw [ownChunk?, Option.ite_none_right_eq_some, Option.some.injEq]

namespace Arena

variable {a : Arena} {l k : Lease} {c : PooledChunk} {x : SubpageId}

/-- A chunk that a lease has for itself is none of those that are shared. -/
theorem Backs.ownChunk_ne (W : a.Wf) (h : a.Backs l) (location : l.location = .unpooled)
    (held : c ∈ a.chunks) : c.chunk.id ≠ l.chunk.id := by
  cases h with
  | run _ _ pooled => rw [pooled] at location; cases location
  | slot _ _ pooled => rw [pooled] at location; cases location
  | own _ _ named _ _ apart =>
    rw [(W.chunks c held).named, named]
    exact fun same => apart c held (Nat.succ.inj same)

/-- Leases that have chunks for themselves, and are not empty, have different ones. -/
theorem Backs.ownChunks_ne (h : a.Backs l) (h' : a.Backs k) (location : l.location = .unpooled)
    (location' : k.location = .unpooled) (apart : l.Apart k) (filled : 0 < l.maxLength)
    (filled' : 0 < k.maxLength) : l.chunk.id ≠ k.chunk.id := by
  cases h with
  | run _ _ pooled => rw [pooled] at location; cases location
  | slot _ _ pooled => rw [pooled] at location; cases location
  | own _ _ named _ _ _ offset =>
    cases h' with
    | run _ _ pooled => rw [pooled] at location'; cases location'
    | slot _ _ pooled => rw [pooled] at location'; cases location'
    | own _ _ named' _ _ _ offset' =>
      intro same
      rw [named, named'] at same
      have memory := Nat.succ.inj same
      rcases apart with other | before | after
      · exact other memory
      · omega
      · omega

/-- The members of a list are recorded for pages of chunks that are held. -/
theorem Wf.ring (W : a.Wf) {head : SubpageId} (h : a.table.IsHead head) : ∃ ids, a.table.Ring head ids ∧
    ∀ x ∈ ids, ∃ c ∈ a.chunks, ∃ page : Nat, c.pages.carved[page]? = some (some x) := by
  obtain ⟨lists, L, -⟩ := W.table.listed
  refine ⟨lists head, L.ring head h, fun x mem => ?_⟩
  obtain ⟨s, hs⟩ := Option.isSome_iff_exists.1 (L.members head h x mem)
  obtain ⟨c, held, -, carved⟩ := W.recorded x s hs
  exact ⟨c, held, _, carved⟩

end Arena

namespace Session

variable {s s' : Session}

/-- The numbers of the chunks that are held, and of those that single leases have for themselves. -/
def chunkIds (s : Session) : List Nat :=
  s.pool.arena.chunks.toList.map (fun c => c.chunk.id) ++ s.leases.filterMap Lease.ownChunk?

/-- The chunks of a session. -/
structure KeepsChunks (s : Session) (config : PoolConfig) : Prop where
  /-- Of several chunks each has a page in use. -/
  occupied : 1 < s.pool.arena.chunks.size → ∀ c ∈ s.pool.arena.chunks,
    c.pages.isEmpty = false ∧ ∃ page, PageMap.isUsed c.pages.used page = true
  limited : config.maxChunks ≠ 0 → s.pool.arena.chunks.size ≤ config.maxChunks
  distinct : s.chunkIds.Nodup
  carved : ∀ c ∈ s.pool.arena.chunks, ∀ (page : Nat) x, c.pages.carved[page]? = some (some x) →
    ∃ u, s.pool.arena.table.get? x = some u ∧ u.chunk = c.chunk.id ∧ u.page.toNat = page
  /-- The members of every list are recorded in chunks that are held. -/
  listed : ∀ head, s.pool.arena.table.IsHead head → ∃ ids, s.pool.arena.table.Ring head ids ∧
    ∀ x ∈ ids, ∃ c ∈ s.pool.arena.chunks, ∃ page : Nat, c.pages.carved[page]? = some (some x)

/-- The chunks of a session and of a later one: not all of them are given up, and those that are do not come
back. -/
structure ChunksLater (s s' : Session) : Prop where
  held : 0 < s.pool.arena.chunks.size → 0 < s'.pool.arena.chunks.size
  gone : ∀ c' ∈ s'.pool.arena.chunks, c'.chunk.id < s.pool.arena.nextChunkId →
    ∃ c ∈ s.pool.arena.chunks, c.chunk = c'.chunk

theorem Wf.nodup_chunkIds (W : s.Wf) (S : s.pool.Sized) : s.chunkIds.Nodup := by
  have filled : ∀ l ∈ s.pool.leases, l.location = .unpooled → 0 < l.maxLength := fun l mem location => by
    obtain ⟨i, lease⟩ := Pool.mem_leases.1 mem
    have sized := S i l lease
    rw [sized.own location]
    exact Nat.lt_of_le_of_lt (Nat.zero_le _) (sized.unpooled.1 location)
  rw [chunkIds, W.leases_eq]
  refine List.nodup_append.2 ⟨List.pairwise_map.2 W.pool.arena.pairwise_chunks, ?_, ?_⟩
  · refine List.pairwise_filterMap.2 (W.pool.pairwise_leases.imp_of_mem fun {l k} hl hk apart n hn m hm => ?_)
    obtain ⟨location, rfl⟩ := Lease.ownChunk?_eq_some.1 hn
    obtain ⟨location', rfl⟩ := Lease.ownChunk?_eq_some.1 hm
    exact (W.pool.backs hl).ownChunks_ne (W.pool.backs hk) location location' apart (filled l hl
      location) (filled k hk location')
  · intro n hn m hm
    obtain ⟨c, held, rfl⟩ := List.mem_map.1 hn
    obtain ⟨l, hl, own⟩ := List.mem_filterMap.1 hm
    obtain ⟨location, rfl⟩ := Lease.ownChunk?_eq_some.1 own
    exact (W.pool.backs hl).ownChunk_ne W.pool.arena location (Array.mem_toList_iff.1 held)

theorem Wf.keepsChunks (W : s.Wf) (S : s.pool.Sized) (T : s.pool.arena.Tidy) :
    s.KeepsChunks s.pool.config where
  occupied several c held := by
    have wf := (W.pool.arena.chunks c held).pages
    obtain ⟨page, starts⟩ := T.occupied several c held
    exact ⟨wf.isEmpty_eq_false.2 ⟨page, starts⟩, page,
      wf.used_of_run (Nat.le_refl page) (Nat.lt_add_of_pos_right starts)⟩
  limited := T.limited
  distinct := W.nodup_chunkIds S
  carved c held page x carved := by
    obtain ⟨u, hu, chunk, number, -⟩ := (W.pool.arena.chunks c held).carved page x carved
    exact ⟨u, hu, chunk, number⟩
  listed _ h := W.pool.arena.ring h

section

variable {config : PoolConfig} {supply : Supply} {pool : Pool} {commands : List Command}

/-- At every state of a run the chunks are in order, and once there is a chunk there always is one. -/
theorem play_keeps_chunks (created : Pool.createOn supply config = .ok pool)
    (lossless : config.pageSize * 2 ^ config.maxOrder < Word.bound)
    (isPublic : ∀ command ∈ commands, command.isPublic = true) :
    ((ofPool pool).stages commands).Yields fun all =>
      (∀ s ∈ all, s.KeepsChunks config) ∧ all.Pairwise ChunksLater := by
  have S := sound_ofPool created lossless
  have start : pool.Sized ∧ pool.arena.Tidy ∧ pool.config = config := by
    obtain ⟨-, rfl⟩ := eq_ofConfig created
    refine ⟨Pool.sized_ofConfig config supply, ⟨fun several => ?_, fun _ => Nat.zero_le _⟩, rfl⟩
    exact absurd several (Nat.not_lt_zero 1)
  apply (stages_yields S commands isPublic).mono
  rintro all ⟨last, -, trail⟩
  constructor
  · intro s mem
    obtain ⟨sound, sized, tidy, same⟩ := trail.forall_mem
      (P := fun p => p.Sized ∧ p.arena.Tidy ∧ p.config = config)
      (fun _ turn h =>
        ⟨turn.steady.sized h.1, turn.tends.tidy h.2.1, turn.steady.config.trans h.2.2⟩) start s mem
    exact same ▸ sound.wf.keepsChunks sized tidy
  · have later := trail.pairwise (R := fun p p' => p.arena.Tends p'.arena ∧ p.arena.Numbers p'.arena)
      (fun h h' => ⟨h.1.trans h'.1, h.2.trans h'.2⟩) fun _ course => ⟨course.tends, course.ages.numbers⟩
    exact later.imp fun h => ⟨h.1.held, h.2.old⟩

/-- The default configuration, a buffer of all pages of a chunk, and one more. -/
theorem play_keeps_chunks_default :
    ((ofPool (.ofConfig {} .full)).stages [.buffer 0 16777216, .buffer 1 100, .drop 0, .drop 1]).Yields
      fun all => (∀ s ∈ all, s.KeepsChunks {}) ∧ all.Pairwise ChunksLater :=
  play_keeps_chunks (show Pool.createOn .full {} = .ok (.ofConfig {} .full) from rfl) (by decide) (by decide)

end

end Session

end BufferPool
