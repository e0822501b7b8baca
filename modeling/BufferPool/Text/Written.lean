import BufferPool.Text.Unprintable

/-!
# Written forms

The written form of a record is its name, then the fields in order, each with its name, between braces.
Buffers, chunks, statistics and errors all describe themselves this way.

A text is written between double quotes. The quote, the backslash and everything without a printed form is
replaced by an escape: a letter for the common ones, else the code point in hexadecimal.
-/

namespace BufferPool.Text

/-- One field of a written record. -/
def recordField (field : String × String) : String :=
  field.1 ++ ": " ++ field.2

/-- A record with its fields in the order given. -/
def record (name : String) (fields : List (String × String)) : String :=
  name ++ " \x7b " ++ String.intercalate ", " (fields.map recordField) ++ " \x7d"

/-- The escape letter of a character that has one. -/
def escapeLetter? : Char → Option Char
  | '\x00' => some '0'
  | '\t' => some 't'
  | '\n' => some 'n'
  | '\r' => some 'r'
  | '"' => some '"'
  | '\\' => some '\\'
  | _ => none

/-- A character as it stands between quotes. -/
def quotedChar (c : Char) : List Char :=
  match escapeLetter? c with
  | some letter => ['\\', letter]
  | none =>
    if isUnprintable c then ['\\', 'u', '\x7b'] ++ Nat.toDigits 16 c.toNat ++ ['\x7d']
    else [c]

/-- A text between quotes. -/
def quoted (s : String) : String :=
  .ofList ('"' :: s.toList.flatMap quotedChar ++ ['"'])

end BufferPool.Text
