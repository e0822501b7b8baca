import BufferPool.Proofs.Arena.Alike

/-!
# Room for idle cores

How many cores may wait, and how often one was found waiting, is written down in the arena but never read by
it. So arenas that differ in the room for idle cores only do the same, and their counters agree but for these
figures (`Counters.plain`).
-/

namespace BufferPool

/-- The counters without those of the idle cores. -/
def Counters.plain (c : Counters) : Counters := { c with recyclerHits := 0, recyclerMisses := 0 }

/-- Counting goes on alike without the figures of the idle cores. -/
theorem Counters.plain_count (c : Counters) (event : Event) :
    (c.count event).plain = (c.plain.count event).plain := by
  cases event with
  | leased kind => cases kind <;> rfl
  | _ => rfl

/-- The same numbers, and counters that agree but for those of the idle cores. -/
def Likeness.plain : Likeness where
  chunk := id
  memory := id
  counters c c' := c'.plain = c.plain
  chunk_injective := Function.injective_id
  memory_injective := Function.injective_id
  count event same := by rw [Counters.plain_count, same, ← Counters.plain_count]
  waited waited waited' same := by cases waited <;> cases waited' <;> exact same

/-- New arenas that differ in the room for idle cores only. -/
theorem Arena.alike_ofConfig (config : PoolConfig) (room : Nat) (supply : Supply) :
    (ofConfig config supply).Alike .plain (ofConfig { config with recyclerCapacity := room } supply) where
  config := ⟨room, rfl⟩
  table := .refl _
  tinyHeads := rfl
  smallHeads := rfl
  chunks := Array.map_empty.symm
  activeLeases := rfl
  next _ := rfl
  heap := ⟨fun _ => rfl, fun _ => rfl, fun _ _ => rfl⟩
  counters := rfl

end BufferPool
