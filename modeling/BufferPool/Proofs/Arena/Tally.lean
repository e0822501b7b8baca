import BufferPool.Proofs.Arena.Books
import BufferPool.Arena.Lease
import BufferPool.Arena.Return

/-!
# Counting at the arena

What the operations of the arena count (`Arena.Tally`): a granted lease is counted once, under its class, and
once more as active if it is pooled; a returned lease is counted once and is not active any more; chunks are
counted as they come and go. Everything else leaves these figures alone, also on the way to a refusal.
-/

namespace BufferPool

/-- Leases granted from chunks that are shared. -/
def Counters.leasedPooled (c : Counters) : Nat := c.leasedTiny + c.leasedSmall + c.leasedNormal

/-- Requests that passed the ceiling. -/
def Counters.attempts (c : Counters) : Nat := c.recyclerHits + c.recyclerMisses

/-- The counters after so many requests were granted of those that passed the ceiling, and leases exchanged,
while so many leases are out, so many of them active, and so many chunks held. A lease that took the place of
another one was granted, but not on request. -/
structure Counters.Balance (c : Counters) (granted out active held moves attempts : Nat) : Prop where
  leased : c.leased = granted + c.moved
  out : c.leased = c.returned + out
  pooled : c.leasedPooled = c.returnedPooled + active
  chunks : c.chunksCreated = c.chunksDestroyed + held
  moves : c.moved = moves
  attempts : c.attempts = attempts

namespace Arena

open Checked

variable {a a' a'' : Arena} {m n : Nat} {granted returned : Nat}

/-- The figures after so many leases were granted and so many came back. -/
structure Tally (a : Arena) (granted returned : Nat) (a' : Arena) : Prop where
  leased : a'.counters.leased = a.counters.leased + granted
  returned : a'.counters.returned = a.counters.returned + returned
  /-- The pooled leases that are out are counted as active. -/
  pooled : a'.counters.leasedPooled + a.counters.returnedPooled + a.activeLeases =
    a.counters.leasedPooled + a'.counters.returnedPooled + a'.activeLeases
  /-- The chunks that came and did not go are those that are held. -/
  chunks : a'.counters.chunksCreated + a.counters.chunksDestroyed + a.chunks.size =
    a.counters.chunksCreated + a'.counters.chunksDestroyed + a'.chunks.size
  moved : a'.counters.moved = a.counters.moved
  attempts : a'.counters.attempts = a.counters.attempts
  config : a'.config = a.config

theorem Tally.trans {granted' returned' : Nat} (h : a.Tally granted returned a')
    (h' : a'.Tally granted' returned' a'') : a.Tally (granted + granted') (returned + returned') a'' where
  leased := by rw [h'.leased, h.leased, Nat.add_assoc]
  returned := by rw [h'.returned, h.returned, Nat.add_assoc]
  pooled := by
    have first := h.pooled
    have second := h'.pooled
    omega
  chunks := by
    have first := h.chunks
    have second := h'.chunks
    omega
  moved := h'.moved.trans h.moved
  attempts := h'.attempts.trans h.attempts
  config := h'.config.trans h.config

/-- Nothing that is counted has happened. -/
theorem tally_of_same (counters : a'.counters = a.counters) (active : a'.activeLeases = a.activeLeases)
    (size : a'.chunks.size = a.chunks.size) (config : a'.config = a.config) : a.Tally 0 0 a' := by
  constructor <;> simp [counters, active, size, config]

theorem Tally.refl (a : Arena) : a.Tally 0 0 a := tally_of_same rfl rfl rfl rfl

theorem Tally.then_same (h : a.Tally granted returned a') (counters : a''.counters = a'.counters)
    (active : a''.activeLeases = a'.activeLeases) (size : a''.chunks.size = a'.chunks.size)
    (config : a''.config = a'.config) : a.Tally granted returned a'' :=
  h.trans (tally_of_same counters active size config)

/-- The counters of an arena agree with its active leases and its chunks. -/
def Counts (a : Arena) (granted out moves attempts : Nat) : Prop :=
  a.counters.Balance granted out a.activeLeases a.chunks.size moves attempts

variable {out out' moves attempts : Nat}

/-- The figures after so many more leases were granted on request and so many came back. -/
theorem Counts.tally (C : a.Counts granted out moves attempts) (h : a.Tally m n a')
    (balance : out' + n = out + m) : a'.Counts (granted + m) out' moves attempts where
  leased := by
    rw [h.leased, h.moved, C.leased]
    exact Nat.add_right_comm ..
  out := by
    have before := C.out
    rw [h.leased, h.returned]
    omega
  pooled := by
    have before := C.pooled
    have kept := h.pooled
    omega
  chunks := by
    have before := C.chunks
    have kept := h.chunks
    omega
  moves := h.moved.trans C.moves
  attempts := h.attempts.trans C.attempts

theorem Counts.same (C : a.Counts granted out moves attempts) (h : a.Tally 0 0 a') :
    a'.Counts granted out moves attempts := C.tally h rfl

/-- A lease that was granted takes the place of another one. -/
theorem Counts.moved (C : a.Counts (granted + 1) out moves attempts) :
    (a.count .moved).Counts granted out (moves + 1) attempts where
  leased := C.leased.trans (Nat.add_right_comm ..)
  out := C.out
  pooled := C.pooled
  chunks := C.chunks
  moves := congrArg (· + 1) C.moves
  attempts := C.attempts

/-- A request passes the ceiling. -/
theorem Counts.attempt (C : a.Counts granted out moves attempts) (waited : Bool) :
    (a.count (if waited then .recyclerHit else .recyclerMiss)).Counts granted out moves (attempts + 1) := by
  cases waited with
  | false => exact ⟨C.leased, C.out, C.pooled, C.chunks, C.moves, congrArg (· + 1) C.attempts⟩
  | true =>
    refine ⟨C.leased, C.out, C.pooled, C.chunks, C.moves, ?_⟩
    exact (Nat.add_right_comm ..).trans (congrArg (· + 1) C.attempts)

/-! ## Leases granted -/

theorem growTakingRun_tally : (a.growTakingRun n).Gives fun r => a.Tally 0 0 r.1 := by
  unfold growTakingRun
  split
  · exact gives_ok.2 (.refl a)
  · split
    · exact gives_ok.2 (tally_of_same rfl rfl rfl rfl)
    · dsimp only
      split
      · exact gives_error
      · refine gives_ok.2 ⟨rfl, rfl, rfl, ?_, rfl, rfl, rfl⟩
        simp only [count, Counters.count, Array.size_push]
        omega

theorem takeRun_tally : (a.takeRun n).Gives fun r => a.Tally 0 0 r.1 := by
  unfold takeRun
  split
  · exact gives_ok.2 (tally_of_same rfl rfl size_withPages rfl)
  · exact growTakingRun_tally

theorem subpageFor_tally {page : UInt32} : (a.subpageFor n page).Gives fun r => a.Tally 0 0 r.1 := by
  unfold subpageFor
  refine .skip fun c => .skip fun found => ?_
  split
  · exact gives_pure.2 (.refl a)
  · exact .skip fun offset => .skip fun pages => gives_pure.2 (tally_of_same rfl rfl size_withPages rfl)

theorem leaseFresh_tally {head : SubpageId} {size capacity : Nat} :
    (a.leaseFresh head size capacity).Gives fun r => a.Tally 0 0 r.1 := by
  unfold leaseFresh
  refine takeRun_tally.bind ?_
  intro ⟨a₁, answer⟩ taken
  cases answer with
  | error refusal => exact gives_pure.2 taken
  | ok run =>
    refine subpageFor_tally.bind ?_
    intro ⟨a₂, id⟩ found
    refine .skip fun table => .skip fun leased => ?_
    split
    · exact gives_error
    · exact .skip fun l => gives_pure.2 ((taken.trans found).then_same rfl rfl rfl rfl)

theorem leaseSlot_tally {size capacity : Nat} :
    (a.leaseSlot size capacity).Gives fun r => a.Tally 0 0 r.1 := by
  unfold leaseSlot
  refine .skip fun head => .skip fun listed => ?_
  split
  · exact .skip fun l => gives_pure.2 (tally_of_same rfl rfl rfl rfl)
  · exact leaseFresh_tally

theorem leaseRun_tally {size capacity : Nat} :
    (a.leaseRun size capacity).Gives fun r => a.Tally 0 0 r.1 := by
  unfold leaseRun
  refine takeRun_tally.bind ?_
  intro ⟨a₁, answer⟩ taken
  cases answer with
  | error refusal => exact gives_pure.2 taken
  | ok run => exact .skip fun c => .skip fun offset => .skip fun size => gives_pure.2 taken

theorem leasePrivate_tally {capacity : Nat} : a.Tally 0 0 (a.leasePrivate capacity).1 := by
  unfold leasePrivate
  split <;> exact tally_of_same rfl rfl rfl rfl

theorem grant_tally {kind : Size.Class} {size capacity : Nat} :
    (a.grant kind size capacity).Gives fun r => a.Tally 0 0 r.1 := by
  unfold grant
  split
  · exact gives_ok.2 leasePrivate_tally
  · exact leaseRun_tally
  · exact leaseSlot_tally

/-- A lease counts under its class, and as active if it is pooled. -/
theorem tally_leased (kind : Size.Class) : a.Tally 1 0 ((a.countPooled kind).count (.leased kind)) := by
  cases kind <;> constructor <;>
    simp +arith [countPooled, count, Counters.count, Counters.leased, Counters.returned, Counters.leasedPooled,
      Counters.attempts]

/-- A lease is counted if it is granted. -/
theorem lease_tally {capacity : Nat} :
    (a.lease capacity).Gives fun r => a.Tally r.2.toBool.toNat 0 r.1 := by
  unfold lease
  refine .skip fun kind => grant_tally.bind ?_
  intro ⟨a₁, answer⟩ granted
  cases answer with
  | error refusal =>
    have failed : a₁.Tally 0 0 (a₁.count .failed) := ⟨rfl, rfl, rfl, rfl, rfl, rfl, rfl⟩
    exact gives_pure.2 (granted.trans failed)
  | ok l => exact gives_pure.2 (by simpa [Except.toBool] using granted.trans (tally_leased kind))

/-! ## Leases returned -/

theorem destroyChunk_tally : (a.destroyChunk n).Gives fun a' => a.Tally 0 0 a' := by
  unfold destroyChunk chunkAt
  cases found : a.chunks[n]? with
  | none => exact gives_error
  | some c =>
    have inside : n < a.chunks.size := (Array.getElem?_eq_some_iff.1 found).1
    refine .skip fun _ => .skip fun table => gives_pure.2 ⟨rfl, rfl, rfl, ?_, rfl, rfl, rfl⟩
    simp only [count, Counters.count, Array.size_pop, Array.size_swapIfInBounds]
    omega

theorem returnRun_tally {index : Nat} : (a.returnRun index n).Gives fun a' => a.Tally 0 0 a' := by
  unfold returnRun
  refine .skip fun c => .skip fun pages => ?_
  have same : a.Tally 0 0 (a.withPages index pages) := tally_of_same rfl rfl size_withPages rfl
  dsimp only
  split
  · exact destroyChunk_tally.mono fun a' gone => same.trans gone
  · exact gives_pure.2 same

theorem returnSlot_tally {index page : Nat} : (a.returnSlot index page n).Gives fun r => a.Tally 0 0 r.1 := by
  unfold returnSlot
  refine .skip fun c => .skip fun found => ?_
  split
  · exact gives_error
  · exact .skip fun s => .skip fun head => .skip fun given => gives_pure.2 (tally_of_same rfl rfl rfl rfl)

theorem returnPooled_tally {chunk : Nat} {locator : Locator} :
    (a.returnPooled chunk locator).Gives fun a' => a.Tally 0 0 a' := by
  unfold returnPooled
  refine .skip fun index => ?_
  split
  · exact returnRun_tally
  · refine returnSlot_tally.bind ?_
    intro ⟨a₁, stays⟩ given
    dsimp only
    split
    · exact gives_pure.2 given
    · have retired : a₁.Tally 0 0 (a₁.count .subpageRetired) := ⟨rfl, rfl, rfl, rfl, rfl, rfl, rfl⟩
      exact returnRun_tally.mono fun a' gone => (given.trans retired).trans gone

/-- A lease that comes back is counted. -/
theorem takeBack_tally {l : Lease} : (a.takeBack l).Gives fun a' => a.Tally 0 1 a' := by
  unfold takeBack
  split
  · refine gives_pure.2 ⟨rfl, ?_, rfl, rfl, rfl, rfl, rfl⟩
    simp +arith [count, Counters.count, Counters.returned]
  · refine returnPooled_tally.bind ?_
    intro a₁ given
    unfold Word.sub
    split
    · rename_i active
      have counted : a₁.Tally 0 1
          (({ a₁ with activeLeases := a₁.activeLeases - 1 } : Arena).count .returnedPooled) := by
        refine ⟨rfl, ?_, ?_, rfl, rfl, rfl, rfl⟩
        · simp +arith [count, Counters.count, Counters.returned]
        · simp only [count, Counters.count, Counters.leasedPooled]
          omega
      exact gives_pure.2 (given.trans counted)
    · exact gives_error

end Arena

end BufferPool
