import BufferPool.Logging.Pattern.Atom

/-!
# Classes of characters

A class stands between brackets. It has characters, ranges of them, classes that are named, further
brackets and operators between sets as its members. Over bytes, what is between a pair of brackets must
stay inside the ASCII set in the end, though its members need not.

Sets count towards how deeply the parts of a pattern lie inside one another.
-/

namespace BufferPool.Logging.Pattern

/-- The deepest nesting that a pattern may have. -/
def maxNesting : Nat := 250

/-- The nesting of parts side by side. If they are several, they lie inside of what they form. -/
def nestingOf : List Nat → Nat
  | [] => 0
  | [n] => n
  | ns => ns.foldl max 0 + 1

/-- A set of characters: how deeply it is nested, and the bytes beyond the ASCII set that it has if the
pattern speaks of bytes. -/
structure CharSet where
  nesting : Nat
  hasByte : Nat → Bool

/-- An operator between two sets. -/
inductive SetOperator where
  | intersection
  | difference
  | symmetricDifference
deriving DecidableEq

/-- Whether an element is in the outcome of an operator, by whether it is in the two sets. -/
def SetOperator.holds : SetOperator → Bool → Bool → Bool
  | intersection, left, right => left && right
  | difference, left, right => left && !right
  | symmetricDifference, left, right => left != right

namespace CharSet

/-- A set inside the ASCII set. -/
def ascii (nesting : Nat) : CharSet := ⟨nesting, fun _ => false⟩

/-- The characters from `low` to `high`. -/
def range (low high : Char) : CharSet := ⟨0, fun byte => low.toNat ≤ byte && byte ≤ high.toNat⟩

/-- The elements of some sets. -/
def union (sets : List CharSet) : CharSet :=
  ⟨nestingOf (sets.map (·.nesting)), fun byte => sets.any (·.hasByte byte)⟩

/-- The outcome of an operator. -/
def combine (op : SetOperator) (left right : CharSet) : CharSet :=
  ⟨max left.nesting right.nesting + 1, fun byte => op.holds (left.hasByte byte) (right.hasByte byte)⟩

end CharSet

/-- A class whose closing bracket is still to come. -/
structure OpenClass where
  /-- Whether a circumflex follows the opening bracket. -/
  negated : Bool
  /-- Whether only hyphens have followed so far. -/
  fresh : Bool
  /-- The set in front of the last operator, and the operator. -/
  left : Option (CharSet × SetOperator)
  /-- The members after the last operator. -/
  members : List CharSet

namespace OpenClass

/-- A class after its opening bracket. -/
def start (negated : Bool) : OpenClass := ⟨negated, true, none, []⟩

/-- The class with a further member. -/
def push (k : OpenClass) (set : CharSet) : OpenClass :=
  { k with fresh := false, members := set :: k.members }

/-- The set of all that was read so far. -/
def set (k : OpenClass) : CharSet :=
  match k.left with
  | none => .union k.members
  | some (left, op) => .combine op left (.union k.members)

/-- The class with a further operator. -/
def apply (k : OpenClass) (op : SetOperator) : OpenClass :=
  { k with fresh := false, left := some (k.set, op), members := [] }

/-- The set of a class that is closed. -/
def close? (f : Flags) (k : OpenClass) : Option CharSet :=
  if f.unicode || (List.range 0x80).all fun n => k.set.hasByte (0x80 + n) == k.negated then
    some (.ascii (k.set.nesting + 1))
  else none

end OpenClass

/-- The names of the classes that stand between a bracket and a colon on either side. -/
def classNames : List String :=
  ["alnum", "alpha", "ascii", "blank", "cntrl", "digit", "graph", "lower", "print", "punct",
    "space", "upper", "word", "xdigit"]

/-- Reads a named class after its opening bracket: whether it is negated. -/
def readNamed? (cs : List Char) : Option (Bool × List Char) := do
  let cs ← Text.char? ':' cs
  let (negated, cs) := match Text.char? '^' cs with
    | some cs => (true, cs)
    | none => (false, cs)
  let name := cs.takeWhile (· ≠ ':')
  let rest ← Text.char? ']' (← Text.char? ':' (cs.drop name.length))
  if classNames.contains (.ofList name) then some (negated, rest) else none

/-- Whether a named class may be a member of a class. -/
def namedIsMember (f : Flags) (negated : Bool) : Bool :=
  if f.unicode then !f.caseless else !negated

/-- Reads the opening of a class after its bracket. -/
def readOpenClass (f : Flags) (cs : List Char) : OpenClass × List Char :=
  match Text.char? '^' (f.skip cs) with
  | some rest => (.start true, rest)
  | none => (.start false, f.skip cs)

/-- Reads a member of a class: an atom, or a range between two of them. A hyphen in front of the closing
bracket or of another hyphen makes no range. -/
def readMember (f : Flags) (cs : List Char) : Option (CharSet × List Char) := do
  let (first, rest) ← readAtom f cs
  if !first.isMember f then none
  let alone := match first.char? with
    | some c => CharSet.range c c
    | none => .ascii 0
  match f.skip rest with
  | '-' :: after =>
    let next := f.next? after
    if next = some ']' ∨ next = some '-' then return (alone, '-' :: after)
    let (last, rest) ← readAtom f (f.skip after)
    let low ← first.char?
    let high ← last.char?
    if last.isMember f ∧ low ≤ high then return (.range low high, rest) else none
  | rest => return (alone, rest)

/-- How far a class was read. -/
inductive ClassProgress where
  /-- Brackets are open, the innermost first. -/
  | within (k : OpenClass) (outer : List OpenClass)
  /-- The outermost bracket is closed. -/
  | closed (set : CharSet)

/-- Reads one element of a class. -/
def stepClass (f : Flags) (k : OpenClass) (outer : List OpenClass) (cs : List Char) :
    Option (ClassProgress × List Char) :=
  let other := do
    let (set, rest) ← readMember f cs
    return (.within (k.push set) outer, rest)
  match cs with
  | '[' :: cs =>
    match readNamed? cs with
    | some (negated, rest) =>
      if namedIsMember f negated then some (.within (k.push (.ascii 0)) outer, rest) else none
    | none =>
      let (inner, rest) := readOpenClass f cs
      some (.within inner (k :: outer), rest)
  | ']' :: cs =>
    if k.fresh ∧ k.members.isEmpty then
      if (Atom.char ']').isMember f then some (.within (k.push (.range ']' ']')) outer, cs) else none
    else match k.close? f, outer with
      | none, _ => none
      | some set, [] => some (.closed set, cs)
      | some set, k :: outer => some (.within (k.push set) outer, cs)
  | '-' :: cs =>
    if k.fresh then
      if (Atom.char '-').isMember f then
        some (.within { k with members := .range '-' '-' :: k.members } outer, cs)
      else none
    else match Text.char? '-' cs with
      | some cs => some (.within (k.apply .difference) outer, cs)
      | none => other
  | '&' :: '&' :: cs => some (.within (k.apply .intersection) outer, cs)
  | '~' :: '~' :: cs => some (.within (k.apply .symmetricDifference) outer, cs)
  | _ => other

/-- Reads the rest of a class inside of open brackets. -/
def finishClass (f : Flags) (k : OpenClass) (outer : List OpenClass) (cs : List Char) :
    Option (CharSet × List Char) :=
  match stepClass f k outer (f.skip cs) with
  | none => none
  | some (.closed set, rest) => some (set, rest)
  | some (.within k outer, rest) =>
    if _h : rest.length < cs.length then finishClass f k outer rest else none
termination_by cs.length

/-- Reads a class after its opening bracket. -/
def readClass (f : Flags) (cs : List Char) : Option (CharSet × List Char) :=
  let (k, rest) := readOpenClass f cs
  finishClass f k [] rest

end BufferPool.Logging.Pattern
