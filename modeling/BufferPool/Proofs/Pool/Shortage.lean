import BufferPool.Pool
import BufferPool.Proofs.Checked

/-!
# Refusals for want of memory

Within its ceiling a core is refused a lease for one reason only: no chunk may be added, or the system gives
no memory (`Refusal.isShortage`). Each operation on the way from the chunks to the core is followed here; all
of them hand the refusal on as it is.
-/

namespace BufferPool

namespace Refusal

/-- Whether a refusal is for want of memory: the chunks are used up, or no memory can be had. -/
def isShortage : Refusal → Bool
  | exhausted .. | outOfMemory .. => true
  | capacityExceeded .. | outOfBounds .. => false

/-- A refusal, if the answer is one, is for want of memory. -/
def OnlyShortage {α : Type} (answer : Answered α) : Prop :=
  ∀ refusal, answer = .error refusal → refusal.isShortage = true

variable {α β : Type}

@[simp] theorem onlyShortage_ok {a : α} : OnlyShortage (.ok a) := nofun

@[simp] theorem onlyShortage_error {refusal : Refusal} :
    OnlyShortage (.error refusal : Answered α) ↔ refusal.isShortage = true := by
  simp [OnlyShortage]

theorem OnlyShortage.error {refusal : Refusal} (h : OnlyShortage (.error refusal : Answered α)) :
    OnlyShortage (.error refusal : Answered β) :=
  onlyShortage_error.2 (onlyShortage_error.1 h)

end Refusal

open Refusal

namespace Arena

variable (a : Arena)

theorem growTakingRun_short (length : Nat) :
    (a.growTakingRun length).Gives fun r => OnlyShortage r.2 := by
  unfold growTakingRun
  split
  · exact Checked.gives_ok.2 (onlyShortage_error.2 rfl)
  split
  · exact Checked.gives_ok.2 (onlyShortage_error.2 rfl)
  simp only
  split
  · exact Checked.gives_error
  · exact Checked.gives_ok.2 onlyShortage_ok

theorem takeRun_short (length : Nat) : (a.takeRun length).Gives fun r => OnlyShortage r.2 := by
  unfold takeRun
  split
  · exact Checked.gives_ok.2 onlyShortage_ok
  · exact growTakingRun_short a length

theorem leaseFresh_short (head : SubpageId) (size capacity : Nat) :
    (a.leaseFresh head size capacity).Gives fun r => OnlyShortage r.2 := by
  unfold leaseFresh
  refine (takeRun_short a 1).bind ?_
  rintro ⟨a1, answer⟩ short
  cases answer with
  | error refusal => exact Checked.gives_pure.2 short.error
  | ok run =>
    refine .skip fun _ => .skip fun _ => .skip fun leased => ?_
    split
    · exact Checked.gives_error
    · exact .skip fun _ => Checked.gives_pure.2 onlyShortage_ok

theorem leaseSlot_short (size capacity : Nat) :
    (a.leaseSlot size capacity).Gives fun r => OnlyShortage r.2 := by
  unfold leaseSlot
  refine .skip fun head => .skip fun listed => ?_
  cases listed with
  | some _ => exact .skip fun _ => Checked.gives_pure.2 onlyShortage_ok
  | none => exact leaseFresh_short a head size capacity

theorem leaseRun_short (size capacity : Nat) :
    (a.leaseRun size capacity).Gives fun r => OnlyShortage r.2 := by
  unfold leaseRun
  refine (takeRun_short a _).bind ?_
  rintro ⟨a1, answer⟩ short
  cases answer with
  | error refusal => exact Checked.gives_pure.2 short.error
  | ok run => exact .skip fun _ => .skip fun _ => .skip fun _ => Checked.gives_pure.2 onlyShortage_ok

theorem leasePrivate_short (capacity : Nat) : OnlyShortage (a.leasePrivate capacity).2 := by
  unfold leasePrivate
  split
  · exact onlyShortage_error.2 rfl
  · exact onlyShortage_ok

theorem grant_short (kind : Size.Class) (size capacity : Nat) :
    (a.grant kind size capacity).Gives fun r => OnlyShortage r.2 := by
  cases kind with
  | tiny _ | small _ => exact leaseSlot_short a size capacity
  | normal => exact leaseRun_short a size capacity
  | huge => exact Checked.gives_ok.2 (leasePrivate_short a capacity)

theorem lease_short (capacity : Nat) : (a.lease capacity).Gives fun r => OnlyShortage r.2 := by
  unfold lease
  refine .skip fun kind => (grant_short a kind _ capacity).bind ?_
  rintro ⟨a1, answer⟩ short
  cases answer with
  | ok _ => exact Checked.gives_pure.2 onlyShortage_ok
  | error refusal => exact Checked.gives_pure.2 short

end Arena

namespace Pool

variable (p : Pool) (id : CoreId) {capacity : Nat}

theorem bindNew_short (capacity : Nat) : (p.bindNew id capacity).Gives fun r => OnlyShortage r.2 := by
  unfold bindNew
  refine (Arena.lease_short p.arena capacity).bind ?_
  rintro ⟨a, answer⟩ short
  cases answer with
  | error refusal => exact Checked.gives_pure.2 short
  | ok _ => exact .skip fun _ => Checked.gives_pure.2 onlyShortage_ok

theorem move_short (capacity : Nat) : (p.move id capacity).Gives fun r => OnlyShortage r.2 := by
  unfold move
  split
  · exact Checked.gives_error
  · refine (bindNew_short _ id capacity).bind ?_
    rintro ⟨p1, answer⟩ short
    cases answer with
    | error refusal => exact Checked.gives_pure.2 short.error
    | ok _ => exact .skip fun _ => .skip fun _ => .skip fun _ => Checked.gives_pure.2 onlyShortage_ok

theorem resizePooled_short (l : Lease) (capacity : Nat) :
    (p.resizePooled id l capacity).Gives fun r => OnlyShortage r.2 := by
  unfold resizePooled
  split
  · split
    · exact Checked.gives_ok.2 onlyShortage_ok
    · exact move_short p id capacity
  · split
    · exact Checked.gives_ok.2 onlyShortage_ok
    · exact move_short p id capacity

/-- Only above its ceiling a core is refused a capacity for another reason. -/
theorem setCapacity_short (ceiling : capacity ≤ (p.core id).maxCapacity) :
    (p.setCapacity id capacity).Gives fun r => OnlyShortage r.2 := by
  unfold setCapacity
  simp only [if_neg (Nat.not_lt.2 ceiling)]
  refine .skip fun lease => ?_
  split
  · exact Checked.gives_pure.2 onlyShortage_ok
  · split
    · exact resizePooled_short p id lease capacity
    · exact move_short p id capacity

end Pool

end BufferPool
