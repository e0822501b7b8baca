import Mathlib.Data.List.Nodup
import BufferPool.Metrics.Publish
import BufferPool.Proofs.Checked

/-!
# Published totals

A recorder of metrics tells counters apart by their names and labels, and adds up what is published under each
key. One call adds to the total of each counter what the counter grew by (`Counters.total_publish`). The
counters of a pool never decrease, so the calls for snapshots in a row add up to the last of them
(`Counters.PublishesTotals`), and nothing is ever added under another key.
-/

namespace BufferPool

/-- What a recorder of metrics tells a counter by. -/
structure MetricKey where
  name : String
  labels : List (String × String)
deriving DecidableEq

namespace Publication

/-- The amount that a publication adds under a key. -/
def amount (key : MetricKey) : Publication → Nat
  | .increment name labels amount => if MetricKey.mk name labels = key then amount else 0
  | .gauge _ _ => 0

/-- What publications add up to under a key. -/
def total (key : MetricKey) : (published : List Publication) → Nat
  | [] => 0
  | p :: rest => p.amount key + total key rest

/-- Whether a publication adds to a counter. -/
def isIncrement : Publication → Bool
  | .increment _ _ _ => true
  | .gauge _ _ => false

theorem total_append (key : MetricKey) (published more : List Publication) :
    total key (published ++ more) = total key published + total key more := by
  induction published with
  | nil => exact (Nat.zero_add _).symm
  | cons p rest ih => rw [List.cons_append, total, ih, total, Nat.add_assoc]

end Publication

open Publication

/-- One of the counters of a pool. -/
inductive Counter where
  | leasedTiny
  | leasedSmall
  | leasedNormal
  | leasedHuge
  | returnedPooled
  | returnedUnpooled
  | failed
  | resizedInPlace
  | moved
  | chunksCreated
  | chunksDestroyed
  | subpagesRetired
  | recyclerHits
  | recyclerMisses
deriving DecidableEq

namespace Counter

/-- What a counter stands at. -/
def value : Counter → Counters → Nat
  | leasedTiny => Counters.leasedTiny
  | leasedSmall => Counters.leasedSmall
  | leasedNormal => Counters.leasedNormal
  | leasedHuge => Counters.leasedHuge
  | returnedPooled => Counters.returnedPooled
  | returnedUnpooled => Counters.returnedUnpooled
  | failed => Counters.failed
  | resizedInPlace => Counters.resizedInPlace
  | moved => Counters.moved
  | chunksCreated => Counters.chunksCreated
  | chunksDestroyed => Counters.chunksDestroyed
  | subpagesRetired => Counters.subpagesRetired
  | recyclerHits => Counters.recyclerHits
  | recyclerMisses => Counters.recyclerMisses

/-- The key of a counter. -/
def key : Counter → MetricKey
  | leasedTiny => ⟨"bufpool_allocations_total", [("class", "tiny")]⟩
  | leasedSmall => ⟨"bufpool_allocations_total", [("class", "small")]⟩
  | leasedNormal => ⟨"bufpool_allocations_total", [("class", "normal")]⟩
  | leasedHuge => ⟨"bufpool_allocations_total", [("class", "huge")]⟩
  | returnedPooled => ⟨"bufpool_deallocations_total", [("kind", "pooled")]⟩
  | returnedUnpooled => ⟨"bufpool_deallocations_total", [("kind", "unpooled")]⟩
  | failed => ⟨"bufpool_allocation_failures_total", []⟩
  | resizedInPlace => ⟨"bufpool_resizes_in_place_total", []⟩
  | moved => ⟨"bufpool_reallocations_total", []⟩
  | chunksCreated => ⟨"bufpool_chunks_created_total", []⟩
  | chunksDestroyed => ⟨"bufpool_chunks_destroyed_total", []⟩
  | subpagesRetired => ⟨"bufpool_subpages_retired_total", []⟩
  | recyclerHits => ⟨"bufpool_recycler_hits_total", []⟩
  | recyclerMisses => ⟨"bufpool_recycler_misses_total", []⟩

/-- All counters, in the order in which they are published. -/
def all : List Counter :=
  [leasedTiny, leasedSmall, leasedNormal, leasedHuge, returnedPooled, returnedUnpooled, failed, resizedInPlace,
    moved, chunksCreated, chunksDestroyed, subpagesRetired, recyclerHits, recyclerMisses]

theorem mem_all (k : Counter) : k ∈ all := by
  cases k <;> decide

theorem nodup_all : all.Nodup := by decide

/-- No two counters share a key. -/
theorem key_injective : Function.Injective key := fun j k same =>
  List.inj_on_of_nodup_map (show (all.map key).Nodup by decide) (mem_all j) (mem_all k) same

/-- A counter as it is published. -/
def published (k : Counter) : PublishedCounter := ⟨k.key.name, k.key.labels, k.value⟩

theorem publishedCounters_eq : Counters.publishedCounters = all.map published := rfl

end Counter

namespace Counters

variable {c last now : Counters} {k : Counter} {snapshots : List Counters}

/-- No counter decreases. -/
def Le (last now : Counters) : Prop := ∀ k : Counter, k.value last ≤ k.value now

/-- The leases that are out, computed in machine words. -/
def liveInWords (c : Counters) : Checked Nat := do
  let leased ← Word.add c.leasedTiny c.leasedSmall
  let leased ← Word.add leased c.leasedNormal
  let leased ← Word.add leased c.leasedHuge
  let returned ← Word.add c.returnedPooled c.returnedUnpooled
  return leased - returned

/-- The calls for snapshots in a row, each with the one before it. -/
def publishAll (last : Counters) : (snapshots : List Counters) → List (List Publication)
  | [] => []
  | now :: rest => last.publish now :: now.publishAll rest

/-! ## One call -/

theorem amount_of_growth? (j : Counter) :
    ((growth? last now j.published).map (amount k.key)).getD 0 =
      if j = k then k.value now - k.value last else 0 := by
  unfold growth?
  by_cases same : j = k
  · subst same
    split
    · exact (if_pos rfl).trans (if_pos rfl).symm
    · rename_i still
      rw [if_pos rfl]
      exact (Nat.sub_eq_zero_of_le (Nat.le_of_not_lt still)).symm
  · have apart : ¬ MetricKey.mk j.key.name j.key.labels = k.key := fun e => same (Counter.key_injective e)
    rw [if_neg same]
    split
    · exact if_neg apart
    · rfl

/-- Among counters that are published, each adds under its own key only. -/
theorem total_growths : ∀ {counters : List Counter}, counters.Nodup →
    total k.key ((counters.map Counter.published).filterMap (growth? last now)) =
      if k ∈ counters then k.value now - k.value last else 0
  | [], _ => rfl
  | j :: rest, nodup => by
    obtain ⟨other, nodup⟩ := List.nodup_cons.1 nodup
    have ih := total_growths nodup
    have first : ((growth? last now j.published).map (amount k.key)).getD 0 =
        if j = k then k.value now - k.value last else 0 := amount_of_growth? j
    have split : total k.key (((j :: rest).map Counter.published).filterMap (growth? last now)) =
        ((growth? last now j.published).map (amount k.key)).getD 0 +
          total k.key ((rest.map Counter.published).filterMap (growth? last now)) := by
      rw [List.map_cons, List.filterMap_cons]
      cases growth? last now j.published with
      | none => exact (Nat.zero_add _).symm
      | some p => rfl
    rw [split, first, ih]
    by_cases same : j = k
    · subst same
      simp [other]
    · simp [same, Ne.symm same]

/-- A call adds to the total of each counter what the counter grew by. -/
theorem total_publish (last now : Counters) (k : Counter) :
    total k.key (last.publish now) = k.value now - k.value last := by
  rw [publish, total_append, Counter.publishedCounters_eq, total_growths Counter.nodup_all,
    if_pos (Counter.mem_all k)]
  rfl

theorem mem_growths {p : Publication} (mem : p ∈ publishedCounters.filterMap (growth? last now)) :
    ∃ k : Counter, k.value last < k.value now ∧
      p = .increment k.key.name k.key.labels (k.value now - k.value last) := by
  rw [Counter.publishedCounters_eq] at mem
  obtain ⟨c, listed, grown⟩ := List.mem_filterMap.1 mem
  obtain ⟨k, -, rfl⟩ := List.mem_map.1 listed
  unfold growth? at grown
  split at grown
  · rename_i more
    cases grown
    exact ⟨k, more, rfl⟩
  · cases grown

/-- Every increment of a call is that of a counter that grew. -/
theorem grown_of_increment {name : String} {labels : List (String × String)} {amount : Nat}
    (mem : .increment name labels amount ∈ last.publish now) :
    ∃ k : Counter, k.key = ⟨name, labels⟩ ∧ k.value last < k.value now ∧
      amount = k.value now - k.value last := by
  rcases List.mem_append.1 mem with growth | gauge
  · obtain ⟨k, more, e⟩ := mem_growths growth
    cases e
    exact ⟨k, rfl, more, rfl⟩
  · cases List.mem_singleton.1 gauge

/-- A counter that did not grow adds nothing. -/
theorem no_increment (still : k.value now ≤ k.value last) (amount : Nat) :
    .increment k.key.name k.key.labels amount ∉ last.publish now := fun mem => by
  obtain ⟨j, same, more, -⟩ := grown_of_increment mem
  rw [Counter.key_injective same] at more
  omega

/-! ## The gauge -/

/-- As long as the sums of the counters are machine words, so are the sums on the way to them. -/
theorem liveInWords_ok (leased : c.leased < Word.bound)
    (returned : c.returnedPooled + c.returnedUnpooled < Word.bound) : c.liveInWords = .ok c.live := by
  unfold Counters.leased at leased
  unfold liveInWords
  rw [Word.add_ok (by omega), Checked.ok_bind, Word.add_ok (by omega), Checked.ok_bind, Word.add_ok leased,
    Checked.ok_bind, Word.add_ok returned]
  rfl

/-- A call that ends by setting the gauge to the number of leases that are out, and does nothing but
increments before. -/
def SetsGauge (now : Counters) (call : List Publication) : Prop :=
  ∃ (increments : List Publication) (live : UInt64), now.liveInWords = .ok live.toNat ∧
    call = increments ++ [.gauge "bufpool_live_leases" live.toFloat] ∧
    ∀ p ∈ increments, p.isIncrement = true

theorem setsGauge_publish (leased : now.leased < Word.bound)
    (returned : now.returnedPooled + now.returnedUnpooled < Word.bound) : now.SetsGauge (last.publish now) := by
  have small : now.live < 2 ^ 64 := Nat.lt_of_le_of_lt (Nat.sub_le ..) leased
  have word : (UInt64.ofNat now.live).toNat = now.live := UInt64.toNat_ofNat_of_lt' small
  refine ⟨_, .ofNat now.live, ?_, rfl, fun p mem => ?_⟩
  · rw [word]
    exact liveInWords_ok leased returned
  · obtain ⟨k, -, rfl⟩ := mem_growths mem
    rfl

/-! ## Calls in a row -/

/-- What calls for snapshots in a row add up to, when every counter was 0 before them. -/
structure PublishesTotals (snapshots : List Counters) (calls : List (List Publication)) : Prop where
  total : ∀ k : Counter, total k.key calls.flatten = k.value (snapshots.getLastD {})
  /-- There are no other keys, and no increments by 0. -/
  known : ∀ name labels amount, .increment name labels amount ∈ calls.flatten →
    0 < amount ∧ ∃ k : Counter, k.key = ⟨name, labels⟩
  gauge : List.Forall₂ SetsGauge snapshots calls

/-- The increments of calls in a row add up to what a counter grew by from the first snapshot to the last. -/
theorem total_publishAll (k : Counter) : ∀ {last : Counters} {snapshots : List Counters},
    (last :: snapshots).IsChain Le →
    k.value last + total k.key (last.publishAll snapshots).flatten = k.value (snapshots.getLastD last)
  | _, [], _ => rfl
  | last, now :: rest, chain => by
    obtain ⟨first, later⟩ := List.isChain_cons_cons.1 chain
    have ih := total_publishAll k later
    have grows := first k
    rw [publishAll, List.flatten_cons, total_append, total_publish, List.getLastD_cons, ← ih]
    omega

theorem known_of_publishAll {name : String} {labels : List (String × String)} {amount : Nat} :
    ∀ {last : Counters} {snapshots : List Counters},
      .increment name labels amount ∈ (last.publishAll snapshots).flatten →
        0 < amount ∧ ∃ k : Counter, k.key = ⟨name, labels⟩
  | _, [], mem => by cases mem
  | _, _ :: _, mem => by
    rw [publishAll, List.flatten_cons] at mem
    rcases List.mem_append.1 mem with first | later
    · obtain ⟨k, key, more, rfl⟩ := grown_of_increment first
      exact ⟨Nat.sub_pos_of_lt more, k, key⟩
    · exact known_of_publishAll later

theorem setsGauge_publishAll : ∀ {last : Counters} {snapshots : List Counters},
    (∀ c ∈ snapshots, c.leased < Word.bound ∧ c.returnedPooled + c.returnedUnpooled < Word.bound) →
    List.Forall₂ SetsGauge snapshots (last.publishAll snapshots)
  | _, [], _ => .nil
  | _, _ :: _, small => by
    obtain ⟨first, later⟩ := List.forall_mem_cons.1 small
    exact .cons (setsGauge_publish first.1 first.2) (setsGauge_publishAll later)

/-- Counters that start at 0 and never decrease are published without loss, each under a key of its own. A
counter that did not grow from one snapshot to another, whatever these are, adds nothing. -/
theorem publishes_totals (chain : (({} : Counters) :: snapshots).IsChain Le)
    (small : ∀ c ∈ snapshots, c.leased < Word.bound ∧ c.returnedPooled + c.returnedUnpooled < Word.bound) :
    Function.Injective Counter.key ∧ PublishesTotals snapshots (publishAll {} snapshots) ∧
      ∀ (last now : Counters) (k : Counter), k.value now ≤ k.value last → ∀ amount,
        .increment k.key.name k.key.labels amount ∉ last.publish now := by
  refine ⟨Counter.key_injective, ⟨fun k => ?_, fun _ _ _ => known_of_publishAll, setsGauge_publishAll small⟩,
    fun _ _ _ => no_increment⟩
  have zero : k.value {} = 0 := by cases k <;> rfl
  have total := total_publishAll k chain
  rwa [zero, Nat.zero_add] at total

/-- Two snapshots, the second with a lease returned. -/
theorem publishes_totals_returned :
    Function.Injective Counter.key ∧
      PublishesTotals [{ leasedTiny := 2, chunksCreated := 1 },
          { leasedTiny := 2, returnedPooled := 1, chunksCreated := 1 }]
        (publishAll {} [{ leasedTiny := 2, chunksCreated := 1 },
          { leasedTiny := 2, returnedPooled := 1, chunksCreated := 1 }]) ∧
      ∀ (last now : Counters) (k : Counter), k.value now ≤ k.value last → ∀ amount,
        .increment k.key.name k.key.labels amount ∉ last.publish now := by
  refine publishes_totals (.cons_cons (fun k => ?_) (.cons_cons (fun k => ?_) (.singleton _))) (by decide)
  · cases k <;> decide
  · cases k <;> decide

end Counters

end BufferPool
