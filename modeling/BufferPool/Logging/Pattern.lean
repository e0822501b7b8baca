import BufferPool.Logging.Pattern.CharClass
import BufferPool.Logging.Pattern.Group

/-!
# Patterns of field values

The value of a field in a log filter is a pattern. A filter only asks whether a text has the form of one:
groups and classes are closed, a repetition follows something that can be repeated, every escape has a
meaning, the ends of a range of characters are in order, and nothing is nested too deeply.

Readers take the characters ahead and give back what they read together with the rest, or nothing if the
characters have not the form asked for.
-/

namespace BufferPool.Logging.Pattern

/-- A part of a pattern. -/
structure Part where
  nesting : Nat
  /-- Whether a sign of repetition may follow. -/
  repeatable : Bool
deriving DecidableEq

/-- What was read inside of a group, or of the whole pattern. -/
structure Scope where
  /-- The nesting of the alternatives before the last bar. -/
  alternatives : List Nat
  /-- The parts after the last bar, the last one first. -/
  parts : List Part
deriving DecidableEq

namespace Scope

/-- The scope with a further part. -/
def push (s : Scope) (part : Part) : Scope := { s with parts := part :: s.parts }

/-- The scope after a bar. -/
def nextAlternative (s : Scope) : Scope :=
  ⟨nestingOf (s.parts.map (·.nesting)) :: s.alternatives, []⟩

/-- The nesting of what was read. -/
def nesting (s : Scope) : Nat := nestingOf s.nextAlternative.alternatives

end Scope

/-- How far a pattern was read. -/
structure State where
  /-- The flags in force. -/
  flags : Flags
  /-- The names of the groups so far. -/
  names : List String
  /-- The innermost open group. -/
  scope : Scope
  /-- The groups around it, the innermost first, with the flags to go back to. -/
  outer : List (Flags × Scope)

namespace State

/-- The state before anything is read. -/
def initial : State := ⟨.initial, [], ⟨[], []⟩, []⟩

/-- The state after a further part. -/
def push (s : State) (part : Part) : State := { s with scope := s.scope.push part }

/-- The state inside a further group. -/
def openGroup (s : State) (letters : List Char) : State :=
  { s with flags := s.flags.set letters, scope := ⟨[], []⟩, outer := (s.flags, s.scope) :: s.outer }

/-- The state after the end of a group. -/
def closeGroup? (s : State) : Option State :=
  match s.outer with
  | [] => none
  | (flags, scope) :: outer =>
    some { s with flags := flags, scope := scope.push ⟨s.scope.nesting + 1, true⟩, outer := outer }

/-- The state after a sign of repetition. -/
def repeat? (s : State) : Option State :=
  match s.scope.parts with
  | ⟨nesting, true⟩ :: parts =>
    some { s with scope := ⟨s.scope.alternatives, ⟨nesting + 1, true⟩ :: parts⟩ }
  | _ => none

end State

/-- Reads one element of a pattern that has characters left. -/
def step (s : State) : List Char → Option (State × List Char)
  | [] => none
  | '(' :: cs => do
    match ← readOpening (s.flags.skip cs) with
    | (.flags letters, rest) =>
      return ({ s with flags := s.flags.set letters }.push ⟨0, false⟩, rest)
    | (.group none letters, rest) => return (s.openGroup letters, rest)
    | (.group (some name) letters, rest) =>
      if s.names.contains name then none
      else return ({ s with names := name :: s.names }.openGroup letters, rest)
  | ')' :: cs => return (← s.closeGroup?, cs)
  | '|' :: cs => some ({ s with scope := s.scope.nextAlternative }, cs)
  | '[' :: cs => do
    let (set, rest) ← readClass s.flags cs
    return (s.push ⟨set.nesting, true⟩, rest)
  | '\x7b' :: _ => none
  | '.' :: cs => if s.flags.unicode then some (s.push ⟨0, true⟩, cs) else none
  | c :: cs =>
    if ['*', '+', '?'].contains c then do return (← s.repeat?, (Text.char? '?' cs).getD cs)
    else if ['^', '$'].contains c then some (s.push ⟨0, true⟩, cs)
    else do
      let (atom, rest) ← readAtom s.flags (c :: cs)
      if atom.standsAlone s.flags then return (s.push ⟨0, true⟩, rest) else none

/-- Whether the rest of a text has the form of a pattern. -/
def endsWell (s : State) (cs : List Char) : Bool :=
  match s.flags.skip cs with
  | [] => s.outer.isEmpty && s.scope.nesting ≤ maxNesting
  | c :: rest =>
    match step s (c :: rest) with
    | some (s, rest) => if _h : rest.length < cs.length then endsWell s rest else false
    | none => false
termination_by cs.length

/-- Whether a text has the form of a pattern. A closing brace cannot occur after an opening one, so an
opening one outside of a class counts nothing. -/
def isWellFormed (cs : List Char) : Bool := endsWell .initial cs

end BufferPool.Logging.Pattern
