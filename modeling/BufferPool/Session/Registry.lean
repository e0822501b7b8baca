/-!
# Numbered handles

A registry keeps values under numbers chosen by the caller, in ascending order of the numbers.
-/

namespace BufferPool

/-- Values under distinct numbers, in ascending order. -/
structure Registry (α : Type) where
  entries : List (Nat × α)

namespace Registry

variable {α : Type}

/-- A registry without values. -/
def empty : Registry α := ⟨[]⟩

/-- The value under a number. -/
def get? (r : Registry α) (key : Nat) : Option α :=
  r.entries.lookup key

/-- Whether there is a value under a number. -/
def contains (r : Registry α) (key : Nat) : Bool :=
  (r.get? key).isSome

/-- The entries with a value put under a number, in the place of an earlier one. -/
def insertEntry (key : Nat) (value : α) : (entries : List (Nat × α)) → List (Nat × α)
  | [] => [(key, value)]
  | (k, v) :: rest =>
    if key < k then (key, value) :: (k, v) :: rest
    else if key = k then (key, value) :: rest
    else (k, v) :: insertEntry key value rest

/-- Puts a value under a number. -/
def insert (r : Registry α) (key : Nat) (value : α) : Registry α :=
  ⟨insertEntry key value r.entries⟩

/-- Takes the value under a number away. -/
def erase (r : Registry α) (key : Nat) : Registry α :=
  ⟨r.entries.filter fun entry => entry.1 != key⟩

/-- The values in the order of their numbers. -/
def values (r : Registry α) : List α := r.entries.map Prod.snd

/-- The numbers in use, ascending. -/
def keys (r : Registry α) : List Nat := r.entries.map Prod.fst

end Registry

end BufferPool
