import BufferPool.Toml.Number
import BufferPool.Toml.Value

/-!
# Reading a TOML document

A document is a sequence of lines: definitions of values, and headers that open the table that the
definitions after them belong to. A document with a line of another form, or with a second definition of
a name, is no document at all.
-/

namespace BufferPool.Toml

open Text (char?)

/-! ## Values -/

/-- Reads the elements of an array and its closing bracket. -/
def readElements (read : Reader Value) (cs : List Char) : Option (List Value × List Char) := do
  match ← skipLines cs with
  | ']' :: rest => return ([], rest)
  | start =>
    let (value, rest) ← read start
    match ← skipLines rest with
    | ']' :: rest => return ([value], rest)
    | ',' :: rest =>
      if _h : rest.length < cs.length then
        let (values, rest) ← readElements read rest
        return (value :: values, rest)
      else none
    | _ => none
termination_by cs.length

/-- Reads a key, the sign of equality, and a value. -/
def readDefinition (read : Reader Value) (cs : List Char) : Option ((Key × Value) × List Char) := do
  let (key, rest) ← readKey cs
  let (value, rest) ← read (skipBlanks (← char? '=' rest))
  return ((key, value), rest)

/-- Reads the definitions of a table between braces and the closing brace. -/
def readDefinitions (read : Reader Value) (cs : List Char) :
    Option (List (Key × Value) × List Char) := do
  let (definition, rest) ← readDefinition read cs
  match skipBlanks rest with
  | '\x7d' :: rest => return ([definition], rest)
  | ',' :: rest =>
    if _h : rest.length < cs.length then
      let (definitions, rest) ← readDefinitions read rest
      return (definition :: definitions, rest)
    else none
  | _ => none
termination_by cs.length

/-- The table of a list of definitions. -/
def tableOf (definitions : List (Key × Value)) : Option Entries :=
  definitions.foldlM (fun es (key, value) => es.define key.parents key.name value) []

/-- Reads the rest of a table between braces. -/
def readInline (read : Reader Value) (cs : List Char) : Option (Value × List Char) :=
  match skipBlanks cs with
  | '\x7d' :: rest => some (.table .inline [], rest)
  | _ => do
    let (definitions, rest) ← readDefinitions read cs
    return (.table .inline (← tableOf definitions), rest)

/-- Reads a number, a date or a time. -/
def readNumber (cs : List Char) : Option (Value × List Char) :=
  match moment? cs, fraction? cs, readInteger cs with
  | some rest, _, _ => some (.moment, rest)
  | none, some rest, _ => some (.fraction, rest)
  | none, none, some (n, rest) => some (.integer n, rest)
  | none, none, none => none

/-- Reads a value that is neither an array nor a table. -/
def readScalar : Reader Value
  | '"' :: cs => (readString ('"' :: cs)).map fun (s, rest) => (.text s, rest)
  | '\'' :: cs => (readString ('\'' :: cs)).map fun (s, rest) => (.text s, rest)
  | 't' :: 'r' :: 'u' :: 'e' :: cs => some (.boolean true, cs)
  | 'f' :: 'a' :: 'l' :: 's' :: 'e' :: cs => some (.boolean false, cs)
  | cs => readNumber cs

/-- Reads a value of at most `levels` nested arrays and tables. -/
def readValue (levels : Nat) : Reader Value
  | '[' :: cs =>
    match levels with
    | 0 => none
    | levels + 1 =>
      (readElements (readValue levels) cs).map fun (values, rest) => (.array values, rest)
  | '\x7b' :: cs =>
    match levels with
    | 0 => none
    | levels + 1 => readInline (readValue levels) cs
  | cs => readScalar cs

/-! ## Lines -/

/-- What was read of a document, and the path of the table that is open. -/
structure Document where
  root : Entries
  path : List String

namespace Document

/-- Opens the table of a header. -/
def openTable (d : Document) (key : Key) : Option Document := do
  let root ← d.root.within false (Entries.openTable key.name) key.parents .header
  return ⟨root, key.parents ++ [key.name]⟩

/-- Opens a new table in the array of a header in double brackets. -/
def openElement (d : Document) (key : Key) : Option Document := do
  let root ← d.root.within false (Entries.openElement key.name) key.parents .header
  return ⟨root, key.parents ++ [key.name]⟩

/-- Defines a value in the open table. -/
def define (d : Document) (key : Key) (value : Value) : Option Document := do
  let change (_ : Origin) (es : Entries) := es.define key.parents key.name value
  return { d with root := ← d.root.within false change d.path .header }

/-- Reads a line that is not blank. -/
def readLine (d : Document) : List Char → Option (Document × List Char)
  | '[' :: '[' :: cs => do
    let (key, rest) ← readKey cs
    let rest ← endLine? (← char? ']' (← char? ']' rest))
    return (← d.openElement key, rest)
  | '[' :: cs => do
    let (key, rest) ← readKey cs
    let rest ← endLine? (← char? ']' rest)
    return (← d.openTable key, rest)
  | cs => do
    let ((key, value), rest) ← readDefinition (readValue (nestingLimit - 1)) cs
    let rest ← endLine? rest
    return (← d.define key value, rest)

/-- Reads the lines of a document. -/
def readLines (d : Document) (cs : List Char) : Option Document :=
  match skipBlanks cs with
  | [] => some d
  | c :: start =>
    if c = '#' ∨ c = '\n' ∨ c = '\r' then do
      let rest ← endLine? (c :: start)
      if _h : rest.length < cs.length then d.readLines rest else none
    else do
      let (d, rest) ← d.readLine (c :: start)
      if _h : rest.length < cs.length then d.readLines rest else none
termination_by cs.length

end Document

/-- The contents of a document, which may begin with a byte order mark. -/
def parse (text : String) : Option Entries :=
  let cs := match text.toList with
    | '\ufeff' :: cs => cs
    | cs => cs
  (Document.readLines ⟨[], []⟩ cs).map Document.root

end BufferPool.Toml
