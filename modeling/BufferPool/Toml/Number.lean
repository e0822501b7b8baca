import BufferPool.Toml.Text

/-!
# Numbers, dates and times of a TOML document
-/

namespace BufferPool.Toml

open Text (char? digitsValue)

/-! ## Integers -/

/-- The further digits of a number; an underscore may stand between two digits. -/
def moreDigits (isDigit : Char → Bool) : List Char → List Char × List Char
  | '_' :: c :: cs =>
    if isDigit c then
      let (digits, rest) := moreDigits isDigit cs
      (c :: digits, rest)
    else ([], '_' :: c :: cs)
  | c :: cs =>
    if isDigit c then
      let (digits, rest) := moreDigits isDigit cs
      (c :: digits, rest)
    else ([], c :: cs)
  | [] => ([], [])

/-- Reads one digit or more. -/
def readDigits (isDigit : Char → Bool) : Reader (List Char)
  | c :: cs =>
    if isDigit c then
      let (digits, rest) := moreDigits isDigit cs
      some (c :: digits, rest)
    else none
  | [] => none

/-- Reads the digits of a decimal number, which has no further digit after a leading zero. -/
def readDecimal : Reader (List Char)
  | '0' :: cs => some (['0'], cs)
  | cs => readDigits Char.isDigit cs

/-- Reads a sign; the answer is whether it is a minus. -/
def readSign : List Char → Bool × List Char
  | '+' :: cs => (false, cs)
  | '-' :: cs => (true, cs)
  | cs => (false, cs)

/-- The least natural number that is not an integer of 64 bits. -/
def intLimit : Nat := 1 <<< 63

/-- An integer of 64 bits, if it is one. -/
def boundedInt (n : Int) : Option Int :=
  if -intLimit ≤ n ∧ n < intLimit then some n else none

/-- Reads the digits of an integer that names its base. -/
def readBased (base : Nat) (cs : List Char) : Option (Int × List Char) := do
  let (digits, rest) ← readDigits (Text.isDigit base) cs
  return (← boundedInt (digitsValue base digits), rest)

/-- Reads an integer. -/
def readInteger : Reader Int
  | '0' :: 'x' :: cs => readBased 16 cs
  | '0' :: 'o' :: cs => readBased 8 cs
  | '0' :: 'b' :: cs => readBased 2 cs
  | cs => do
    let (negative, cs) := readSign cs
    let (digits, rest) ← readDecimal cs
    let n : Int := digitsValue 10 digits
    return (← boundedInt (if negative then -n else n), rest)

/-! ## Fractional numbers -/

/-- Reads an exponent. -/
def readExponent : Reader Int
  | c :: cs => do
    if c ≠ 'e' ∧ c ≠ 'E' then none
    let (negative, cs) := readSign cs
    let (digits, rest) ← readDigits Char.isDigit cs
    let n : Int := digitsValue 10 digits
    return (if negative then -n else n, rest)
  | [] => none

/-- The least number that is rounded to infinity: half a step above the largest double. -/
def overflowBound : Nat := (1 <<< 1024) - (1 <<< 970)

/-- Whether a decimal number is too large for a double. -/
def overflows (digits : List Char) (exponent : Int) : Bool :=
  let significant := digits.dropWhile (· = '0')
  let magnitude : Int := significant.length + exponent
  let n := digitsValue 10 significant
  if significant.isEmpty || magnitude < 300 then false
  else if 400 < magnitude then true
  else if 0 ≤ exponent then overflowBound ≤ n * Nat.pow 10 exponent.toNat
  else overflowBound * Nat.pow 10 (-exponent).toNat ≤ n

/-- Reads the part of a number that makes it fractional: digits after a point, an exponent, or both. The
answer is the digits and the exponent. -/
def readFraction : Reader (List Char × Int)
  | '.' :: cs => do
    let (digits, rest) ← readDigits Char.isDigit cs
    match readExponent rest with
    | some (exponent, rest) => return ((digits, exponent), rest)
    | none => return ((digits, 0), rest)
  | cs => do
    let (exponent, rest) ← readExponent cs
    return (([], exponent), rest)

/-- Passes over a name of a number that is not finite. -/
def notFinite? : List Char → Option (List Char)
  | 'i' :: 'n' :: 'f' :: cs => some cs
  | 'n' :: 'a' :: 'n' :: cs => some cs
  | _ => none

/-- Passes over a fractional number. A positive one that is too large for a double is none. -/
def fraction? (cs : List Char) : Option (List Char) :=
  let (negative, cs) := readSign cs
  match readDecimal cs with
  | none => notFinite? cs
  | some (whole, rest) => do
    let ((digits, exponent), rest) ← readFraction rest
    if !negative && overflows (whole ++ digits) (exponent - digits.length) then none else some rest

/-! ## Dates and times -/

/-- Reads a number of exactly `count` digits. -/
def readFixed (count : Nat) (cs : List Char) : Option (Nat × List Char) :=
  let digits := cs.take count
  if digits.length = count ∧ digits.all Char.isDigit then
    some (digitsValue 10 digits, cs.drop count)
  else none

/-- Reads a number of two digits from `least` to `most`. -/
def readTwo (least most : Nat) (cs : List Char) : Option (Nat × List Char) := do
  let (n, rest) ← readFixed 2 cs
  if least ≤ n ∧ n ≤ most then some (n, rest) else none

/-- Whether a year has a leap day. -/
def isLeapYear (year : Nat) : Bool := year % 4 = 0 && (year % 100 ≠ 0 || year % 400 = 0)

/-- The number of days of a month. -/
def daysIn (year month : Nat) : Nat :=
  if month = 2 then (if isLeapYear year then 29 else 28)
  else if month ∈ [4, 6, 9, 11] then 30
  else 31

/-- Passes over a date. -/
def date? (cs : List Char) : Option (List Char) := do
  let (year, cs) ← readFixed 4 cs
  let (month, cs) ← readTwo 1 12 (← char? '-' cs)
  let (_, cs) ← readTwo 1 (daysIn year month) (← char? '-' cs)
  return cs

/-- Passes over a fraction of a second, if there is one. -/
def skipSecondFraction : List Char → List Char
  | '.' :: c :: cs => if c.isDigit then cs.dropWhile Char.isDigit else '.' :: c :: cs
  | cs => cs

/-- Passes over a time of day. -/
def time? (cs : List Char) : Option (List Char) := do
  let (_, cs) ← readTwo 0 23 cs
  let (_, cs) ← readTwo 0 59 (← char? ':' cs)
  let (_, cs) ← readTwo 0 60 (← char? ':' cs)
  return skipSecondFraction cs

/-- Passes over a distance from universal time. -/
def zone? : List Char → Option (List Char)
  | c :: cs =>
    if c = 'Z' ∨ c = 'z' then some cs
    else if c = '+' ∨ c = '-' then do
      let (_, cs) ← readTwo 0 23 cs
      let (_, cs) ← readTwo 0 59 (← char? ':' cs)
      return cs
    else none
  | [] => none

/-- Passes over what may follow a date: a time, and after it a zone. -/
def timeAfterDate? : List Char → Option (List Char)
  | c :: cs =>
    if c = 'T' ∨ c = 't' ∨ c = ' ' then do
      let cs ← time? cs
      return (zone? cs).getD cs
    else none
  | [] => none

/-- Passes over a date, a time, or both. -/
def moment? (cs : List Char) : Option (List Char) :=
  match date? cs with
  | some rest => some ((timeAfterDate? rest).getD rest)
  | none => time? cs

end BufferPool.Toml
