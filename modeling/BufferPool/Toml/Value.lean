/-!
# Values of a TOML document

A document is a table of named values. A table may be written between braces, opened by a header, or come
about because a dotted key or a longer header passes through it. Where it comes from decides what may
still be added to it:

* a table between braces is complete;
* a header opens a table once, unless so far the table was only passed through by longer headers;
* a dotted key passes through tables made by dotted keys, never through one that a header opened;
* a header in double brackets adds a table to an array of tables, and later headers that pass through the
  array mean its last table.

Fractional numbers, dates and times are recognized, and their values dropped.
-/

namespace BufferPool.Toml

/-- Where a table comes from. -/
inductive Origin where
  /-- Written between braces. -/
  | inline
  /-- Opened by a header. -/
  | header
  /-- Passed through by a longer header. -/
  | implied
  /-- Passed through by a dotted key. -/
  | dotted
deriving DecidableEq

/-- A value of a document. -/
inductive Value where
  | text (s : String)
  | integer (n : Int)
  | fraction
  | boolean (b : Bool)
  /-- A date, a time, or both. -/
  | moment
  /-- An array between brackets. -/
  | array (elements : List Value)
  | table (origin : Origin) (entries : List (String × Value))
  /-- An array of tables, each opened by a header in double brackets. -/
  | tables (elements : List (List (String × Value)))

/-- The contents of a table, in the order of definition. -/
abbrev Entries := List (String × Value)

namespace Entries

/-- The entries with the value of a present name replaced. -/
def replace (es : Entries) (name : String) (value : Value) : Entries :=
  es.map fun e => if e.1 = name then (name, value) else e

/-- Changes the table that a path leads to, creating the tables on the way that are missing. -/
def within (byDots : Bool) (change : Origin → Entries → Option Entries) :
    (path : List String) → Origin → Entries → Option Entries
  | [], origin, es => change origin es
  | name :: path, _, es =>
    match es.lookup name with
    | none => do
      let origin : Origin := if byDots then .dotted else .implied
      let inner ← within byDots change path origin []
      return es ++ [(name, .table origin inner)]
    | some (.table origin inner) =>
      if origin = .inline ∨ (byDots ∧ origin = .header) then none
      else do
        let inner ← within byDots change path origin inner
        return es.replace name (.table origin inner)
    | some (.tables elements) =>
      match elements.getLast? with
      | none => none
      | some last => do
        let last ← within byDots change path .header last
        return es.replace name (.tables (elements.dropLast ++ [last]))
    | some _ => none

/-- Adds a value under a new name. A table that is passed through by dots takes values by dotted keys
only, and any other table takes none by them. -/
def addNew (byDots : Bool) (name : String) (value : Value) (origin : Origin) (es : Entries) :
    Option Entries :=
  if byDots ≠ decide (origin = .dotted) then none
  else match es.lookup name with
    | some _ => none
    | none => some (es ++ [(name, value)])

/-- Defines a value under a key of one or more parts. -/
def define (es : Entries) (parents : List String) (name : String) (value : Value) :
    Option Entries :=
  within true (addNew (!parents.isEmpty) name value) parents .header es

/-- Opens a table. -/
def openTable (name : String) (_ : Origin) (es : Entries) : Option Entries :=
  match es.lookup name with
  | none => some (es ++ [(name, .table .header [])])
  | some (.table .implied inner) => some (es.replace name (.table .header inner))
  | some _ => none

/-- Adds a table to an array of tables. -/
def openElement (name : String) (_ : Origin) (es : Entries) : Option Entries :=
  match es.lookup name with
  | none => some (es ++ [(name, .tables [[]])])
  | some (.tables elements) => some (es.replace name (.tables (elements ++ [[]])))
  | some _ => none

end Entries

end BufferPool.Toml
