import BufferPool.Logging.Pattern
import BufferPool.Violation

/-!
# Log filters

A filter says what is logged. It consists of directives with commas between them. A directive is a level,
which holds for everything, or it names a target, a span or both and the level that holds there:
`target[span{field=value}]=level`. Of a directive with a name, the level may be missing.

The signs that divide a directive are looked for in the directive without the whitespace around it, and
what stands between them is cut at the byte positions found there out of the directive with its
whitespace. So whitespace in front moves every part, and whitespace behind belongs to the level.
A character takes one to four bytes, and it is a violation to cut inside of one.
-/

namespace BufferPool.Text

/-- The bytes that a text takes. -/
def byteLength (cs : List Char) : Nat := cs.foldl (fun bytes c => bytes + c.utf8Size) 0

/-- The characters of a text, each with the position of its first byte, counted from `start`. -/
def located (start : Nat) : List Char → List (Nat × Char)
  | [] => []
  | c :: cs => (start, c) :: located (start + c.utf8Size) cs

/-- The character that a position is inside of, with the position of its first byte. -/
def around? (position : Nat) (text : List Char) : Option (Nat × Char) :=
  (located 0 text).find? fun (first, c) => first < position && position < first + c.utf8Size

/-- The part of a text from the position `start` up to the position `stop`. -/
def cut (text : List Char) (start stop : Nat) : Checked (List Char) :=
  match around? start text, around? stop text with
  | some (first, c), _ => .error (.startsInside start c first)
  | none, some (first, c) => .error (.endsInside stop c first)
  | none, none => .ok (((located 0 text).filter fun l => start ≤ l.1 && l.1 < stop).map (·.2))

end BufferPool.Text

namespace BufferPool.Logging

/-- The names of the levels, from the one that logs nothing to the one that logs most. -/
def levelNames : List String := ["off", "error", "warn", "info", "debug", "trace"]

/-- Whether a text is the number of a level: its place among the levels, counted from 0. -/
def isLevelNumber (cs : List Char) : Bool :=
  let digits := (Text.char? '+' cs).getD cs
  !digits.isEmpty && digits.all (Text.isDigit 10) && Text.digitsValue 10 digits < levelNames.length

/-- Whether a text is a level: its number, or its name in letters of either case. -/
def isLevel (cs : List Char) : Bool :=
  isLevelNumber cs || levelNames.contains (.ofList (cs.map Char.toLower))

/-- Whether what follows the equals sign is a level or nothing. -/
def isLevelOrNone (cs : List Char) : Bool := cs.isEmpty || isLevel cs

/-- Whether a text is a decimal number without a sign. -/
def isNumber (cs : List Char) : Bool :=
  let digits := cs.takeWhile (Text.isDigit 10)
  let rest := cs.drop digits.length
  let point := Text.char? '.' rest
  let fraction := (point.getD []).takeWhile (Text.isDigit 10)
  let rest := (point.getD rest).drop fraction.length
  !(digits ++ fraction).isEmpty &&
    match rest with
    | [] => true
    | c :: power =>
      let power := if power.head? = some '-' then power.drop 1 else (Text.char? '+' power).getD power
      c.toLower = 'e' && !power.isEmpty && power.all (Text.isDigit 10)

/-- The numbers that are written as words. -/
def numberWords : List String := ["inf", "infinity", "nan"]

/-- Whether a text can be the value of a field: a pattern, or a number after a plus sign. -/
def isValue (cs : List Char) : Bool :=
  Pattern.isWellFormed cs ||
    match cs with
    | '+' :: number => isNumber number || numberWords.contains (.ofList (number.map Char.toLower))
    | _ => false

/-- Whether a text is a field: a name, perhaps with a value after an equals sign. What follows a second
equals sign does not count. -/
def isField (cs : List Char) : Bool :=
  !cs.isEmpty &&
    match cs.dropWhile (· ≠ '=') with
    | [] => true
    | _ :: rest => isValue (rest.takeWhile (· ≠ '='))

/-- Whether a directive `whole` is in order from the level on, which starts at a position. -/
def levelEndsWell (whole : List Char) (start : Nat) : Checked Bool := do
  return isLevelOrNone (← Text.cut whole start (Text.byteLength whole))

/-- Whether a directive `whole` is in order after its names, which end at a position: nothing is left of it,
or a level comes. -/
def nameEndsWell (whole : List Char) (position : Nat) : List Char → Checked Bool
  | [] => return true
  | '=' :: _ => levelEndsWell whole (position + 1)
  | _ => return false

/-- A character of the name of a span. -/
def isSpanChar (c : Char) : Bool := c ≠ ']' && c ≠ '\x7b'

/-- Whether a directive `whole` is in order from a field on, which starts at a position. -/
def fieldEndsWell (whole : List Char) (start : Nat) (cs : List Char) : Checked Bool := do
  let field := cs.takeWhile (· ≠ '\x7d')
  let stop := start + Text.byteLength field
  match cs.drop field.length with
  | '\x7d' :: rest =>
    if !isField (← Text.cut whole start stop) then return false
    match rest with
    | ']' :: rest => nameEndsWell whole (stop + 2) rest
    | _ => return false
  | _ => return false

/-- Whether a directive `whole` is in order from the name of a span on, which starts at a position. -/
def spanEndsWell (whole : List Char) (start : Nat) (cs : List Char) : Checked Bool := do
  let name := cs.takeWhile isSpanChar
  let stop := start + Text.byteLength name
  match cs.drop name.length with
  | ']' :: rest =>
    let _ ← Text.cut whole start stop
    nameEndsWell whole (stop + 1) rest
  | '\x7b' :: rest =>
    let _ ← Text.cut whole start stop
    fieldEndsWell whole (stop + 1) rest
  | _ => return false

/-- A character that a target may begin with. -/
def beginsTarget (c : Char) : Bool := Text.isAlphanumeric c || c = '-' || c = ':' || c = '_'

/-- A character of the name of a target. -/
def isTargetChar (c : Char) : Bool := c ≠ '=' && c ≠ '['

/-- Whether a text is a directive. -/
def isDirective (whole : List Char) : Checked Bool := do
  let text := Text.trimmed whole
  match text with
  | [] => return false
  | '[' :: rest => spanEndsWell whole 1 rest
  | c :: _ =>
    if !beginsTarget c then return false
    let name := text.takeWhile isTargetChar
    let stop := Text.byteLength name
    match text.drop name.length with
    | '=' :: _ =>
      let _ ← Text.cut whole 0 stop
      levelEndsWell whole (stop + 1)
    | '[' :: rest =>
      let _ ← Text.cut whole 0 stop
      spanEndsWell whole (stop + 1) rest
    | _ => return true

/-- The parts of a text between commas. -/
def parts : List Char → List (List Char)
  | [] => [[]]
  | ',' :: cs => [] :: parts cs
  | c :: cs =>
    match parts cs with
    | first :: rest => (c :: first) :: rest
    | [] => [[c]]

/-- Whether all of some texts are directives. Nothing is read after the first that is not. -/
def areDirectives : List (List Char) → Checked Bool
  | [] => return true
  | text :: rest => do
    if ← isDirective text then areDirectives rest else return false

/-- Whether a text is a filter. Empty directives are passed over. -/
def isFilter (text : String) : Checked Bool :=
  areDirectives ((parts text.toList).filter (!·.isEmpty))

end BufferPool.Logging
