import BufferPool.Logging.Pattern.Flags
import BufferPool.Text.Characters

/-!
# Atoms of a pattern

An atom is a character or an escape. No tables of characters beyond the ASCII set stand behind a pattern.
So the classes of digits, blanks and word characters and the boundaries of words exist over bytes alone,
their complements, which leave the ASCII set, not at all, and no character has a second case unless the
pattern speaks of bytes. Over bytes, nothing that is matched may be part of a longer character.
-/

namespace BufferPool.Logging.Pattern

/-- What a character or an escape stands for. -/
inductive Atom where
  /-- A single character. -/
  | char (c : Char)
  /-- A character written with two digits. Over bytes, it is the byte of that value. -/
  | byte (c : Char)
  /-- A class of ASCII characters. -/
  | family
  /-- A place between two characters. -/
  | place
deriving DecidableEq

namespace Atom

/-- The character that an atom stands for. -/
def char? : Atom → Option Char
  | char c => some c
  | byte c => some c
  | family => none
  | place => none

/-- Whether an atom may stand in a pattern by itself. -/
def standsAlone (f : Flags) : Atom → Bool
  | char _ => !(f.unicode && f.caseless)
  | byte c => if f.unicode then !f.caseless else c.toNat < 0x80
  | family => true
  | place => true

/-- Whether an atom may stand between the brackets of a class. -/
def isMember (f : Flags) : Atom → Bool
  | char c => if f.unicode then !f.caseless else c.toNat < 0x80
  | byte _ => !(f.unicode && f.caseless)
  | family => true
  | place => false

end Atom

/-- Reads `count` hexadecimal digits, with blanks between them if the flags say so. -/
def readDigits (f : Flags) : Nat → List Char → Option (List Char × List Char)
  | 0, cs => some ([], cs)
  | _ + 1, [] => none
  | count + 1, c :: cs =>
    if Text.isDigit 16 c then
      (readDigits f count (f.skip cs)).map fun (digits, rest) => (c :: digits, rest)
    else none

/-- The character with the code point that `count` hexadecimal digits give. -/
def readCodePoint (f : Flags) (count : Nat) (cs : List Char) : Option (Char × List Char) := do
  let (digits, rest) ← readDigits f count (f.skip cs)
  let n := Text.digitsValue 16 digits
  if h : n.isValidChar then return (.ofNatAux n h, rest) else none

/-- The escapes of control characters. -/
def controls : List (Char × Char) :=
  [('a', '\x07'), ('f', '\x0c'), ('n', '\n'), ('r', '\r'), ('t', '\t'), ('v', '\x0b')]

/-- Reads what follows a backslash. Signs of the ASCII set stand for themselves, except the angle brackets,
which are the boundaries of a word. -/
def readEscape (f : Flags) : List Char → Option (Atom × List Char)
  | [] => none
  | 'x' :: cs => (readCodePoint f 2 cs).map fun (c, rest) => (.byte c, rest)
  | 'u' :: cs => (readCodePoint f 4 cs).map fun (c, rest) => (.char c, rest)
  | 'U' :: cs => (readCodePoint f 8 cs).map fun (c, rest) => (.char c, rest)
  | c :: cs =>
    if ['A', 'z'].contains c then some (.place, cs)
    else if ['b', 'B', '<', '>'].contains c then if f.unicode then none else some (.place, cs)
    else if ['d', 's', 'w'].contains c then if f.unicode then none else some (.family, cs)
    else match controls.lookup c with
      | some control => some (.char control, cs)
      | none => if c.toNat < 0x80 ∧ !c.isAlphanum then some (.char c, cs) else none

/-- Reads a character or an escape. -/
def readAtom (f : Flags) : List Char → Option (Atom × List Char)
  | [] => none
  | '\\' :: cs => readEscape f cs
  | c :: cs => some (.char c, cs)

end BufferPool.Logging.Pattern
