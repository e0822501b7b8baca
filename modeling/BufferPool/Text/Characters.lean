/-!
# Characters

What the readers of texts ask of single characters. A class of characters is an array of ranges of code
points in ascending order; the characters with the property White_Space of the Unicode character database
are one. Digits are those of a base up to 16, with the letters of either case as the digits from ten on.
-/

namespace BufferPool.Text

/-- Whether a number lies in one of some ranges, both ends included. -/
def inRanges (ranges : Array (Nat × Nat)) (n : Nat) : Bool :=
  ranges.any fun r => r.1 ≤ n && n ≤ r.2

/-! ## Whitespace -/

/-- The ranges of whitespace. -/
def whitespaceRanges : Array (Nat × Nat) :=
  #[(0x09, 0x0d), (0x20, 0x20), (0x85, 0x85), (0xa0, 0xa0), (0x1680, 0x1680), (0x2000, 0x200a),
    (0x2028, 0x2029), (0x202f, 0x202f), (0x205f, 0x205f), (0x3000, 0x3000)]

/-- Whether a character is whitespace in any script. -/
def isWhitespace (c : Char) : Bool := inRanges whitespaceRanges c.toNat

/-- A text without the whitespace in front of it and behind it. -/
def trimmed (cs : List Char) : List Char :=
  ((cs.dropWhile isWhitespace).reverse.dropWhile isWhitespace).reverse

/-! ## Digits -/

/-- The value of a digit in a given base. -/
def digit? (base : Nat) (c : Char) : Option Nat :=
  let value := if c.isDigit then some (c.toNat - '0'.toNat)
    else if 'a' ≤ c ∧ c ≤ 'f' then some (c.toNat - 'a'.toNat + 10)
    else if 'A' ≤ c ∧ c ≤ 'F' then some (c.toNat - 'A'.toNat + 10)
    else none
  value.filter (· < base)

/-- Whether a character is a digit in a given base. -/
def isDigit (base : Nat) (c : Char) : Bool := (digit? base c).isSome

/-- The value of a sequence of digits. -/
def digitsValue (base : Nat) (digits : List Char) : Nat :=
  digits.foldl (fun n c => n * base + (digit? base c).getD 0) 0

/-- The rest after a given character, if it comes first. -/
def char? (c : Char) : List Char → Option (List Char)
  | d :: cs => if c = d then some cs else none
  | [] => none

end BufferPool.Text
