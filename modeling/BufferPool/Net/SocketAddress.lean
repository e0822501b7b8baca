import BufferPool.Text.Characters

/-!
# Socket addresses

The address of a host and a port on it. An address of version 4 is written as four decimal numbers with
points between them. One of version 6 is written in brackets, as eight groups of hexadecimal digits with
colons between them; one sequence of zero groups may be left out, the last two groups may be written as an
address of version 4, and a scope may follow.

An address is written back in its shortest form: the longest sequence of two or more zero groups is left
out, the first one if there are several.
-/

namespace BufferPool.Net

open Text (char?)

/-- A host, a port, and for version 6 the scope of the host. -/
inductive SocketAddress where
  | v4 (octets : List Nat) (port : Nat)
  | v6 (groups : List Nat) (scope port : Nat)
deriving DecidableEq

/-- Reads all the digits ahead as a number below `limit`. -/
def readNumber (base limit : Nat) (cs : List Char) : Option (Nat × List Char) :=
  let digits := cs.takeWhile (Text.isDigit base)
  let value := Text.digitsValue base digits
  if digits.isEmpty || limit ≤ value then none
  else some (value, cs.dropWhile (Text.isDigit base))

/-- Reads one of the numbers of an address of version 4, which has no leading zeros. -/
def readOctet (cs : List Char) : Option (Nat × List Char) := do
  let (value, rest) ← readNumber 10 256 cs
  let length := cs.length - rest.length
  if 3 < length ∨ (1 < length ∧ cs.head? = some '0') then none else some (value, rest)

/-- Reads an address of version 4. -/
def readV4 (cs : List Char) : Option (List Nat × List Char) := do
  let (a, cs) ← readOctet cs
  let (b, cs) ← readOctet (← char? '.' cs)
  let (c, cs) ← readOctet (← char? '.' cs)
  let (d, cs) ← readOctet (← char? '.' cs)
  return ([a, b, c, d], cs)

/-- Reads a group of up to four hexadecimal digits. -/
def readGroup (cs : List Char) : Option (Nat × List Char) := do
  let (value, rest) ← readNumber 16 (1 <<< 16) cs
  if 4 < cs.length - rest.length then none else some (value, rest)

/-- Passes over the colon between two groups. -/
def colonUnless (first : Bool) (cs : List Char) : Option (List Char) :=
  if first then some cs else char? ':' cs

/-- The two groups of an address of version 4. -/
def groupsOfV4 : List Nat → List Nat
  | [a, b, c, d] => [a * 256 + b, c * 256 + d]
  | _ => []

/-- Groups that were read: whether an address of version 4 was the last of them, and the rest. -/
structure Groups where
  groups : List Nat
  endsInV4 : Bool
  rest : List Char

/-- Reads up to `limit` groups, as many as there are. -/
def readGroups (first : Bool) (cs : List Char) : (limit : Nat) → Groups
  | 0 => ⟨[], false, cs⟩
  | limit + 1 =>
    let v4 := if limit = 0 then none else (colonUnless first cs).bind readV4
    match v4 with
    | some (octets, rest) => ⟨groupsOfV4 octets, true, rest⟩
    | none =>
      match (colonUnless first cs).bind readGroup with
      | none => ⟨[], false, cs⟩
      | some (group, rest) =>
        let more := readGroups false rest limit
        { more with groups := group :: more.groups }

/-- Reads an address of version 6. -/
def readV6 (cs : List Char) : Option (List Nat × List Char) :=
  let head := readGroups true cs 8
  if head.groups.length = 8 then some (head.groups, head.rest)
  else if head.endsInV4 then none
  else do
    let rest ← char? ':' (← char? ':' head.rest)
    let tail := readGroups true rest (7 - head.groups.length)
    let missing := 8 - head.groups.length - tail.groups.length
    return (head.groups ++ List.replicate missing 0 ++ tail.groups, tail.rest)

/-- Reads a colon and a port. -/
def readPort (cs : List Char) : Option (Nat × List Char) := do
  readNumber 10 (1 <<< 16) (← char? ':' cs)

/-- Reads a scope, 0 if there is none. -/
def readScope (cs : List Char) : Nat × List Char :=
  match (char? '%' cs).bind (readNumber 10 (1 <<< 32)) with
  | some found => found
  | none => (0, cs)

/-- Reads an address of version 4 and a port. -/
def readSocketV4 (cs : List Char) : Option (SocketAddress × List Char) := do
  let (octets, cs) ← readV4 cs
  let (port, cs) ← readPort cs
  return (.v4 octets port, cs)

/-- Reads an address of version 6 in brackets, and a port. -/
def readSocketV6 (cs : List Char) : Option (SocketAddress × List Char) := do
  let (groups, cs) ← readV6 (← char? '[' cs)
  let (scope, cs) := readScope cs
  let (port, cs) ← readPort (← char? ']' cs)
  return (.v6 groups scope port, cs)

namespace SocketAddress

/-- The socket address that a text is, if it is one. -/
def parse? (s : String) : Option SocketAddress :=
  match readSocketV4 s.toList, readSocketV6 s.toList with
  | some (address, []), _ => some address
  | none, some (address, []) => some address
  | _, _ => none

/-- A number in lower-case hexadecimal. -/
def hex (n : Nat) : String := .ofList (Nat.toDigits 16 n)

/-- Groups with colons between them. -/
def groupsText (groups : List Nat) : String := String.intercalate ":" (groups.map hex)

/-- The octets of an address of version 4 with points between them. -/
def octetsText (octets : List Nat) : String := String.intercalate "." (octets.map toString)

/-- The number of zero groups in front. -/
def zerosAhead (groups : List Nat) : Nat := (groups.takeWhile (· = 0)).length

/-- The start and the length of the longest sequence of zero groups, the first one of several. -/
def longestZeros : (groups : List Nat) → (start : Nat) → Nat × Nat
  | [], start => (start, 0)
  | g :: rest, start =>
    let here := zerosAhead (g :: rest)
    let later := longestZeros rest (start + 1)
    if later.2 ≤ here then (start, here) else later

/-- An address of version 6 in its shortest form. One that stands for an address of version 4 shows it. -/
def v6Text (groups : List Nat) : String :=
  match groups with
  | [0, 0, 0, 0, 0, 0xffff, a, b] =>
    "::ffff:" ++ octetsText [a / 256, a % 256, b / 256, b % 256]
  | _ =>
    let (start, length) := longestZeros groups 0
    if 1 < length then
      groupsText (groups.take start) ++ "::" ++ groupsText (groups.drop (start + length))
    else groupsText groups

/-- A socket address written back. -/
def text : SocketAddress → String
  | v4 octets port => octetsText octets ++ ":" ++ toString port
  | v6 groups 0 port => "[" ++ v6Text groups ++ "]:" ++ toString port
  | v6 groups scope port =>
    "[" ++ v6Text groups ++ "%" ++ toString scope ++ "]:" ++ toString port

end SocketAddress

end BufferPool.Net
