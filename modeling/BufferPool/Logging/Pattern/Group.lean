import BufferPool.Logging.Pattern.Flags
import BufferPool.Text.Alphanumeric
import BufferPool.Text.Characters

/-!
# Groups

What follows an opening parenthesis: the name of a group, flags that hold inside of it, or flags alone,
which hold for the rest of the group around them.
-/

namespace BufferPool.Logging.Pattern

/-- A character that the name of a group may begin with. -/
def beginsName (c : Char) : Bool := c = '_' || Text.isAlphabetic c

/-- A character of the name of a group. -/
def isNameChar (c : Char) : Bool :=
  Text.isAlphanumeric c || ['_', '.', '[', ']'].contains c

/-- Reads the name of a group and the angle bracket after it. -/
def readName (cs : List Char) : Option (String × List Char) := do
  let name := cs.takeWhile isNameChar
  let rest ← Text.char? '>' (cs.drop name.length)
  if name.head?.any beginsName then some (.ofList name, rest) else none

/-- What follows the opening parenthesis of a group. -/
inductive Opening where
  /-- The contents of the group, with flags of their own. -/
  | group (name : Option String) (letters : List Char)
  /-- The closing parenthesis, after flags for what comes next. -/
  | flags (letters : List Char)
deriving DecidableEq

/-- Reads what may follow the opening parenthesis of a group. -/
def readOpening : List Char → Option (Opening × List Char)
  | '?' :: 'P' :: '<' :: cs => (readName cs).map fun (name, rest) => (.group (some name) [], rest)
  | '?' :: '<' :: cs => (readName cs).map fun (name, rest) => (.group (some name) [], rest)
  | '?' :: cs =>
    let letters := cs.takeWhile fun c => c ≠ ':' && c ≠ ')'
    if !Flags.areLetters letters then none
    else match cs.drop letters.length with
      | ':' :: rest => some (.group none letters, rest)
      | ')' :: rest => if letters.isEmpty then none else some (.flags letters, rest)
      | _ => none
  | cs => some (.group none [], cs)

end BufferPool.Logging.Pattern
