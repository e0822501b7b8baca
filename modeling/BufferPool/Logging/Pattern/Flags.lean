import BufferPool.Text.Characters

/-!
# Flags of a pattern

Flags say how the rest of a group is read. Three of them decide what has the form of a pattern; the
others only change what a pattern matches.
-/

namespace BufferPool.Logging.Pattern

/-- The flags that decide what has the form of a pattern. -/
structure Flags where
  /-- A letter stands for both its cases. -/
  caseless : Bool
  /-- The pattern speaks of characters, not of bytes. -/
  unicode : Bool
  /-- Whitespace and comments count nothing. -/
  verbose : Bool
deriving DecidableEq

/-- What follows whitespace and comments. A comment runs from a hash sign to the end of the line. -/
def afterBlanks (inComment : Bool) : List Char → List Char
  | [] => []
  | c :: cs =>
    if inComment then afterBlanks (c ≠ '\n') cs
    else if c = '#' then afterBlanks true cs
    else if Text.isWhitespace c then afterBlanks false cs
    else c :: cs

/-- The first character after whitespace and the hash sign of a comment. -/
def firstAfterBlanks? (inComment : Bool) : List Char → Option Char
  | [] => none
  | c :: cs =>
    if Text.isWhitespace c then firstAfterBlanks? inComment cs
    else if !inComment && c = '#' then firstAfterBlanks? true cs
    else some c

namespace Flags

/-- The flags at the start of a pattern. -/
def initial : Flags := ⟨false, true, false⟩

/-- Whether a text sets flags: each at most once, with at most one hyphen, which is not the last. -/
def areLetters (letters : List Char) : Bool :=
  letters.Nodup && letters.all ['i', 'm', 's', 'U', 'u', 'R', 'x', '-'].contains &&
    letters.getLast? != some '-'

/-- A flag after some letters: set in front of the hyphen, cleared behind it, else as it was. -/
def setting (letters : List Char) (letter : Char) (before : Bool) : Bool :=
  if letters.contains letter then (letters.takeWhile (· ≠ '-')).contains letter else before

/-- The flags after some letters. -/
def set (f : Flags) (letters : List Char) : Flags :=
  ⟨setting letters 'i' f.caseless, setting letters 'u' f.unicode, setting letters 'x' f.verbose⟩

/-- What is left when blanks that count nothing are passed over. -/
def skip (f : Flags) (cs : List Char) : List Char := if f.verbose then afterBlanks false cs else cs

/-- The character ahead. Of a comment, only the hash sign is passed over. -/
def next? (f : Flags) (cs : List Char) : Option Char :=
  if f.verbose then firstAfterBlanks? false cs else cs.head?

end Flags

end BufferPool.Logging.Pattern
