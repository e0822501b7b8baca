import BufferPool.Proofs.Session.Basic

/-!
# Where handles read and write

A buffer and each of its views read and write at cursors of their own. What a command does to them follows
from the command and its answer (`Cursors.after`): it moves the cursors of the handle that it works on, if it
is granted, and those of no other handle.
-/

namespace BufferPool

/-- Where a handle reads next, and where it writes next. -/
structure Cursors where
  reader : Nat
  writer : Nat

/-- The cursors of a buffer are those of its core. -/
def Core.cursors (c : Core) : Cursors := ⟨c.reader, c.writer⟩

namespace View

def cursors (v : View) : Cursors := ⟨v.reader, v.writer⟩

/-- The same window with other cursors. -/
def withCursors (v : View) (c : Cursors) : View := { v with reader := c.reader, writer := c.writer }

end View

namespace Session

/-- The handle that a command works on. -/
def Command.target? : Command → Option Nat
  | .setCapacity key _ | .ensureWritable key _ | .setIndex key _ _ | .write key _ | .setBytes key _ _
  | .read key _ | .getBytes key _ _ | .copyReadable key | .info key => some key
  | _ => none

/-- Whether an answer says that a command on a handle was carried out. -/
def Answer.isGrant : Answer → Bool
  | .done | .bytes _ => true
  | _ => false

/-- Whether an answer says no more than that a command was carried out. -/
def Answer.isDone : Answer → Bool
  | done => true
  | _ => false

theorem Answer.isDone_iff {answer : Answer} : answer.isDone = true ↔ answer = .done := by
  cases answer <;> simp [isDone]

end Session

namespace Cursors

open Session

variable {c : Cursors} {command : Command} {answer : Answer} {key key' : Nat}

/-- The cursors of a handle after a command on it. A resize brings them inside the capacity; making room
and access to a range leave them where they are. -/
def moved (c : Cursors) (command : Command) (answer : Answer) : Cursors :=
  match command, answer with
  | .setCapacity _ capacity, .done => ⟨min c.reader capacity, min c.writer capacity⟩
  | .setIndex _ reader writer, .done => ⟨reader, writer⟩
  | .write _ bytes, .done => ⟨c.reader, c.writer + bytes.size⟩
  | .read _ length, .bytes _ => ⟨c.reader + length, c.writer⟩
  | _, _ => c

/-- The cursors of the handle under a number after a command. -/
def after (c : Cursors) (command : Command) (key : Nat) (answer : Answer) : Cursors :=
  if command.target? = some key then c.moved command answer else c

theorem after_of_target (target : command.target? = some key) :
    c.after command key answer = c.moved command answer := if_pos target

/-- A command leaves the cursors of other handles where they are. -/
theorem after_of_ne (target : command.target? = some key) (ne : key' ≠ key) :
    c.after command key' answer = c := by
  rw [after, target, if_neg]
  exact fun same => ne (Option.some.inj same).symm

theorem after_of_no_target (aside : command.target? = none) : c.after command key answer = c := by
  rw [after, aside, if_neg nofun]

/-- A command that moves no cursors leaves all of them where they are. -/
theorem after_of_moved_eq (still : c.moved command answer = c) : c.after command key answer = c := by
  rw [after, still, ite_self]

/-- A command that is not carried out leaves all cursors where they are. -/
theorem after_of_not_grant (idle : answer.isGrant = false) : c.after command key answer = c := by
  apply after_of_moved_eq
  cases answer with
  | done => cases idle
  | bytes _ => cases idle
  | _ => cases command <;> rfl

end Cursors

end BufferPool
