import BufferPool.Text.Characters

/-!
# Blanks, strings and keys of a TOML document

Readers take the characters ahead and give back what they read together with the rest, or nothing if
the characters have not the form asked for.
-/

namespace BufferPool.Toml

/-- A reader: what it reads and the rest, if the characters have its form. -/
abbrev Reader (α : Type) := List Char → Option (α × List Char)

/-- A blank inside a line. -/
def isBlank (c : Char) : Bool := c = ' ' || c = '\t'

/-- A character that may stand in comments and strings: no control character but the tab. -/
def isTextChar (c : Char) : Bool := c = '\t' || (0x20 ≤ c.toNat && c.toNat ≠ 0x7f)

/-- Passes over blanks. -/
def skipBlanks (cs : List Char) : List Char := cs.dropWhile isBlank

/-- Passes over a comment, if there is one. -/
def skipComment : List Char → List Char
  | '#' :: cs => cs.dropWhile isTextChar
  | cs => cs

/-- Passes over the end of a line. -/
def newline? : List Char → Option (List Char)
  | '\n' :: cs => some cs
  | '\r' :: '\n' :: cs => some cs
  | _ => none

/-- Passes over the rest of a line, which holds no more than blanks and a comment. -/
def endLine? (cs : List Char) : Option (List Char) :=
  match skipComment (skipBlanks cs) with
  | [] => some []
  | cs => newline? cs

/-- Passes over blanks, comments and line ends. -/
def skipLines (cs : List Char) : Option (List Char) :=
  match skipBlanks cs with
  | '#' :: rest => do
    let rest ← newline? (rest.dropWhile isTextChar)
    if _h : rest.length < cs.length then skipLines rest else none
  | rest =>
    match newline? rest with
    | some rest => if _h : rest.length < cs.length then skipLines rest else none
    | none => some rest
termination_by cs.length

/-! ## Strings -/

/-- The character with a code point in hexadecimal, if there is one. -/
def codePoint? (digits : List Char) : Option Char := do
  if !digits.all (Text.isDigit 16) then none
  let n := Text.digitsValue 16 digits
  if h : n.isValidChar then some (.ofNatAux n h) else none

/-- The character that a letter after a backslash stands for. -/
def escaped? : Char → Option Char
  | 'b' => some '\x08'
  | 't' => some '\t'
  | 'n' => some '\n'
  | 'f' => some '\x0c'
  | 'r' => some '\r'
  | '"' => some '"'
  | '\\' => some '\\'
  | _ => none

/-- Adds a character, if there is one, to the text that a reader goes on with. -/
def withChar (c : Option Char) (acc : List Char)
    (go : List Char → Option (String × List Char)) : Option (String × List Char) :=
  c.bind fun c => go (c :: acc)

/-- Reads on in a string between double quotes. -/
def readBasic (acc : List Char) : Reader String
  | '"' :: cs => some (.ofList acc.reverse, cs)
  | '\\' :: 'u' :: a :: b :: c :: d :: cs =>
    withChar (codePoint? [a, b, c, d]) acc fun acc => readBasic acc cs
  | '\\' :: 'U' :: a :: b :: c :: d :: e :: f :: g :: h :: cs =>
    withChar (codePoint? [a, b, c, d, e, f, g, h]) acc fun acc => readBasic acc cs
  | '\\' :: c :: cs => withChar (escaped? c) acc fun acc => readBasic acc cs
  | c :: cs => if isTextChar c && c ≠ '\\' then readBasic (c :: acc) cs else none
  | [] => none

/-- Reads on in a string between single quotes. -/
def readLiteral (cs : List Char) : Option (String × List Char) :=
  let isContent (c : Char) : Bool := isTextChar c && c ≠ '\''
  match cs.dropWhile isContent with
  | '\'' :: rest => some (.ofList (cs.takeWhile isContent), rest)
  | _ => none

/-- What a string of several lines does with blanks and line ends. -/
inductive Folding where
  /-- They belong to the text. -/
  | kept
  /-- A backslash was read, and a line end has to follow. -/
  | beforeLineEnd
  /-- They are passed over, as they follow a backslash at the end of a line. -/
  | dropped

/-- Reads on in a string between three double quotes. One or two quotes may precede the closing ones. -/
def readFolded (acc : List Char) : Folding → Reader String
  | .beforeLineEnd, c :: cs =>
    if isBlank c then readFolded acc .beforeLineEnd cs
    else match c, cs with
      | '\n', cs => readFolded acc .dropped cs
      | '\r', '\n' :: cs => readFolded acc .dropped cs
      | _, _ => none
  | .dropped, ' ' :: cs => readFolded acc .dropped cs
  | .dropped, '\t' :: cs => readFolded acc .dropped cs
  | .dropped, '\n' :: cs => readFolded acc .dropped cs
  | .dropped, '\r' :: '\n' :: cs => readFolded acc .dropped cs
  | _, '"' :: '"' :: '"' :: '"' :: '"' :: cs => some (.ofList ('"' :: '"' :: acc).reverse, cs)
  | _, '"' :: '"' :: '"' :: '"' :: cs => some (.ofList ('"' :: acc).reverse, cs)
  | _, '"' :: '"' :: '"' :: cs => some (.ofList acc.reverse, cs)
  | _, '\\' :: 'u' :: a :: b :: c :: d :: cs =>
    withChar (codePoint? [a, b, c, d]) acc fun acc => readFolded acc .kept cs
  | _, '\\' :: 'U' :: a :: b :: c :: d :: e :: f :: g :: h :: cs =>
    withChar (codePoint? [a, b, c, d, e, f, g, h]) acc fun acc => readFolded acc .kept cs
  | _, '\\' :: '\n' :: cs => readFolded acc .dropped cs
  | _, '\\' :: '\r' :: '\n' :: cs => readFolded acc .dropped cs
  | _, '\\' :: c :: cs =>
    if isBlank c then readFolded acc .beforeLineEnd cs
    else withChar (escaped? c) acc fun acc => readFolded acc .kept cs
  | _, '\n' :: cs => readFolded ('\n' :: acc) .kept cs
  | _, '\r' :: '\n' :: cs => readFolded ('\n' :: acc) .kept cs
  | _, c :: cs => if isTextChar c && c ≠ '\\' then readFolded (c :: acc) .kept cs else none
  | _, [] => none

/-- Reads on in a string between three single quotes. -/
def readRaw (acc : List Char) : Reader String
  | '\'' :: '\'' :: '\'' :: '\'' :: '\'' :: cs => some (.ofList ('\'' :: '\'' :: acc).reverse, cs)
  | '\'' :: '\'' :: '\'' :: '\'' :: cs => some (.ofList ('\'' :: acc).reverse, cs)
  | '\'' :: '\'' :: '\'' :: cs => some (.ofList acc.reverse, cs)
  | '\n' :: cs => readRaw ('\n' :: acc) cs
  | '\r' :: '\n' :: cs => readRaw ('\n' :: acc) cs
  | c :: cs => if isTextChar c then readRaw (c :: acc) cs else none
  | [] => none

/-- Passes over a line end right after the opening quotes. -/
def skipFirstNewline (cs : List Char) : List Char := (newline? cs).getD cs

/-- Reads a string of any form. -/
def readString : Reader String
  | '"' :: '"' :: '"' :: cs => readFolded [] .kept (skipFirstNewline cs)
  | '"' :: cs => readBasic [] cs
  | '\'' :: '\'' :: '\'' :: cs => readRaw [] (skipFirstNewline cs)
  | '\'' :: cs => readLiteral cs
  | _ => none

/-! ## Keys -/

/-- A character of a key without quotes. -/
def isKeyChar (c : Char) : Bool := c.isAlphanum || c = '-' || c = '_'

/-- Reads one part of a key. -/
def readKeyPart : Reader String
  | '"' :: cs => readBasic [] cs
  | '\'' :: cs => readLiteral cs
  | cs =>
    match cs.takeWhile isKeyChar with
    | [] => none
    | part => some (.ofList part, cs.dropWhile isKeyChar)

/-- Reads the parts of a key, which dots separate. -/
def readKeyParts (cs : List Char) : Option (List String × List Char) := do
  let (part, rest) ← readKeyPart (skipBlanks cs)
  match skipBlanks rest with
  | '.' :: rest =>
    if _h : rest.length < cs.length then
      let (parts, rest) ← readKeyParts rest
      return (part :: parts, rest)
    else none
  | rest => return ([part], rest)
termination_by cs.length

/-- Keys and nested values have fewer parts and levels than this. -/
def nestingLimit : Nat := 80

/-- A key: the parts before the last one, and the last one. -/
structure Key where
  parents : List String
  name : String

/-- Reads a key and the blanks around it. -/
def readKey (cs : List Char) : Option (Key × List Char) := do
  let (parts, rest) ← readKeyParts cs
  let name ← parts.getLast?
  if parts.length < nestingLimit then return (⟨parts.dropLast, name⟩, rest) else none

end BufferPool.Toml
