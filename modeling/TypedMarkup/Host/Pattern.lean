import TypedMarkup.Host.Equality
import TypedMarkup.Number.Places
import TypedMarkup.Number.Reading

/-!
Contract: texts with gaps that are filled with values.

Owns: `Pattern.fill`. A gap is a percent sign, perhaps a key in parentheses, flags, a width, a
precision behind a point, and a letter that says how the value is written. Two percent signs stand
for one. The values come from a tuple one by one, or from a mapping by their keys; any other value
is the only one. A value that no gap takes is a failure.
-/

namespace TypedMarkup.Host.Pattern

structure Flags where
  toLeft : Bool
  plus : Bool
  blank : Bool
  alternate : Bool
  zeros : Bool

/-- A gap: its flags, width and precision, and its letter. -/
structure Gap where
  flags : Flags
  width : Nat
  precision : Option Nat
  letter : Char

/-- The written form of a value in a gap, in parts: zeros are filled in behind the sign and the
mark of the base. -/
structure Written where
  sign : List Char
  base : List Char
  body : List Char
  isNumber : Bool

def Written.ofText (text : List Char) : Written := ⟨[], [], text, false⟩

def Written.pad (written : Written) (gap : Gap) : List Char :=
  let lead := written.sign ++ written.base
  let missing := gap.width - (lead.length + written.body.length)
  if gap.flags.toLeft then lead ++ written.body ++ List.replicate missing ' '
  else if gap.flags.zeros && written.isNumber then
    lead ++ List.replicate missing '0' ++ written.body
  else List.replicate missing ' ' ++ lead ++ written.body

def readFlags (flags : Flags) : List Char → Flags × List Char
  | '-' :: rest => readFlags { flags with toLeft := true } rest
  | '+' :: rest => readFlags { flags with plus := true } rest
  | ' ' :: rest => readFlags { flags with blank := true } rest
  | '#' :: rest => readFlags { flags with alternate := true } rest
  | '0' :: rest => readFlags { flags with zeros := true } rest
  | rest => (flags, rest)

def takeValue : List Value → Except Failure (Value × List Value)
  | [] => .error (.pattern "not enough arguments for format string")
  | value :: rest => .ok (value, rest)

/-- Reads a width or precision: digits, or a star that takes it from the values. -/
def readSize (pattern : List Char) (values : List Value) :
    Except Failure (Option Int × List Char × List Value) :=
  match pattern with
  | '*' :: rest => do
    let (value, others) ← takeValue values
    match indexOf? value with
    | some size => return (some size, rest, others)
    | none => throw (.pattern "* wants int")
  | _ =>
    let digits := pattern.takeWhile Char.isDigit
    if digits.isEmpty then .ok (none, pattern, values)
    else .ok (some (Number.ofDigits digits), pattern.dropWhile Char.isDigit, values)

/-- Reads a key up to the parenthesis that closes it: `depth` more of them are open inside. -/
def readKey (depth : Nat) : List Char → Option (List Char × List Char)
  | [] => none
  | ')' :: rest =>
    match depth with
    | 0 => some ([], rest)
    | outer + 1 => (readKey outer rest).map fun found => (')' :: found.1, found.2)
  | '(' :: rest => (readKey (depth + 1) rest).map fun found => ('(' :: found.1, found.2)
  | character :: rest => (readKey depth rest).map fun found => (character :: found.1, found.2)

def readPrecision (pattern : List Char) (values : List Value) :
    Except Failure (Option Nat × List Char × List Value) :=
  match pattern with
  | '.' :: rest => do
    let (size, behind, others) ← readSize rest values
    return (some (size.getD 0).toNat, behind, others)
  | _ => .ok (none, pattern, values)

def readGap (pattern : List Char) (values : List Value) :
    Except Failure (Gap × List Char × List Value) := do
  let (flags, behindFlags) := readFlags ⟨false, false, false, false, false⟩ pattern
  let (size, behindSize, others) ← readSize behindFlags values
  let (precision, behind, left) ← readPrecision behindSize others
  let width := size.getD 0
  let start := match behind with
    | 'h' :: rest => rest
    | 'l' :: rest => rest
    | 'L' :: rest => rest
    | _ => behind
  match start with
  | [] => throw (.patternLetter "incomplete format")
  | letter :: rest =>
    return (⟨{ flags with toLeft := flags.toLeft || width < 0 }, width.natAbs, precision, letter⟩,
      rest, left)

def signOf (flags : Flags) (negative : Bool) : List Char :=
  if negative then ['-'] else if flags.plus then ['+'] else if flags.blank then [' '] else []

/-- The base of a letter for whole numbers, and the mark that shows it. -/
def baseOf (letter : Char) : Nat × List Char :=
  if letter = 'o' then (8, ['0', 'o'])
  else if letter = 'x' then (16, ['0', 'x'])
  else if letter = 'X' then (16, ['0', 'X'])
  else (10, [])

def writeInteger (gap : Gap) (number : Int) : Written :=
  let (base, mark) := baseOf gap.letter
  let digits := Nat.toDigits base number.natAbs
  let shown := if gap.letter = 'X' then digits.map Char.toUpper else digits
  { sign := signOf gap.flags (number < 0)
    base := if gap.flags.alternate then mark else []
    body := List.replicate (gap.precision.getD 0 - shown.length) '0' ++ shown
    isNumber := true }

def writeReal (gap : Gap) (number : Binary64) : Written :=
  let always := gap.flags.alternate
  let precision := gap.precision.getD 6
  let body := match number with
    | .nan => ['n', 'a', 'n']
    | .infinite _ => ['i', 'n', 'f']
    | .finite _ mantissa exponent =>
      match gap.letter.toLower with
      | 'e' => Places.scientific always precision mantissa exponent
      | 'g' => Places.general always (if precision = 0 then 1 else precision) mantissa exponent
      | _ => Places.fixed always precision mantissa exponent
  { sign := signOf gap.flags number.isNegative
    base := []
    body := if gap.letter.isUpper then body.map Char.toUpper else body
    isNumber := true }

def numberFailure (gap : Gap) (value : Value) : Failure :=
  let needed := if (baseOf gap.letter).1 = 10 then "a real number" else "an integer"
  .pattern s!"%{gap.letter} format: {needed} is required, not {value.typeName}"

def integerIn (gap : Gap) (value : Value) : Except Failure Int :=
  match value.numeric? with
  | some (.int number) => .ok number
  | some number =>
    if (baseOf gap.letter).1 = 10 then wholePart number else .error (numberFailure gap value)
  | none => .error (numberFailure gap value)

def realIn (value : Value) : Except Failure Binary64 :=
  match value.numeric? with
  | some number => realOf number
  | none => .error (.pattern s!"must be real number, not {value.typeName}")

def characterIn (value : Value) : Except Failure Char :=
  match value.content?, indexOf? value with
  | some content, _ =>
    match content.toList with
    | [only] => .ok only
    | _ => .error (.pattern "%c requires int or char")
  | none, some code =>
    if 0 ≤ code ∧ code < 0x110000 then .ok (Char.ofNat code.toNat)
    else .error .characterRange
  | none, none => .error (.pattern "%c requires int or char")

def plainOnly (text : List Char) : List Char :=
  text.flatMap fun character =>
    let code := character.toNat
    if code < 0x80 then [character]
    else if code < 0x100 then ['\\', 'x'] ++ Text.hexDigits 2 code
    else if code < 0x10000 then ['\\', 'u'] ++ Text.hexDigits 4 code
    else ['\\', 'U'] ++ Text.hexDigits 8 code

def writeText (gap : Gap) (text : List Char) : Written :=
  .ofText (match gap.precision with
    | some limit => text.take limit
    | none => text)

def checkWidth (width : Nat) : Except Failure Unit :=
  if lengthLimit < width then .error .noRoom else .ok ()

/-- A value in a gap; `place` is where its letter stands. -/
def write (gap : Gap) (value : Value) (place : Nat) : Except Failure Written :=
  match gap.letter with
  | 's' => do return writeText gap (← value.shown).toList
  | 'r' => do return writeText gap (← value.shownLiteral).toList
  | 'a' => do return writeText gap (plainOnly (← value.shownLiteral).toList)
  | 'c' => (characterIn value).map fun found => .ofText [found]
  | letter =>
    if ['d', 'i', 'u', 'o', 'x', 'X'].contains letter then do
      let number ← integerIn gap value
      if (baseOf letter).1 = 10 ∧ longNumber ≤ number.natAbs then throw .integerLength
      checkWidth (gap.precision.getD 0)
      return writeInteger gap number
    else if ['e', 'E', 'f', 'F', 'g', 'G'].contains letter then do
      let number ← realIn value
      checkWidth (gap.precision.getD 0)
      return writeReal gap number
    else
      let shown := if 31 ≤ letter.toNat && letter.toNat ≤ 126 then letter else '?'
      let code := String.ofList (Nat.toDigits 16 letter.toNat)
      .error (.patternLetter
        s!"unsupported format character '{shown}' (0x{code}) at index {place}")

/-- The values of a gap with a key: the one that a mapping has for it. -/
def keyed (lookup : String → Except Failure Value) (values : List Value) :
    List Char → Except Failure (List Char × List Value)
  | '(' :: rest =>
    match readKey 0 rest with
    | some (key, behind) => do return (behind, [← lookup (String.ofList key)])
    | none => .error (.patternLetter "incomplete format key")
  | pattern => .ok (pattern, values)

/-- Fills the gaps of what is left of a pattern of a given length. `fuel` is at least the number of
characters left. -/
def fillRest (length : Nat) (lookup : String → Except Failure Value) :
    (fuel : Nat) → List Char → List Value → Except Failure (List Char × List Value)
  | 0, _, values => .ok ([], values)
  | _, [], values => .ok ([], values)
  | fuel + 1, '%' :: '%' :: rest, values => do
    let (more, left) ← fillRest length lookup fuel rest values
    return ('%' :: more, left)
  | fuel + 1, '%' :: rest, values => do
    let (start, available) ← keyed lookup values rest
    let (gap, behind, others) ← readGap start available
    let (value, remaining) ← takeValue others
    let written ← write gap value (length - behind.length - 1)
    checkWidth gap.width
    let (more, left) ← fillRest length lookup fuel behind remaining
    return (written.pad gap ++ more, left)
  | fuel + 1, character :: rest, values => do
    let (more, left) ← fillRest length lookup fuel rest values
    return (character :: more, left)

def isMapping : Value → Bool
  | .list _ => true
  | .dict _ => true
  | .range _ _ _ => true
  | .vocabulary _ => true
  | _ => false

/-- Fills the gaps of a pattern. `item` finds the item of a mapping. -/
def fill (item : Value → Value → Except Failure Value) (pattern : String) (value : Value) :
    Except Failure String := do
  let characters := pattern.toList
  let lookup := fun key : String =>
    if isMapping value then item value (.text key)
    else .error (.pattern "format requires a mapping")
  let (filled, left) ← fillRest characters.length lookup (characters.length + 1) characters
    (value.tupleItems?.getD [value])
  if left.isEmpty || isMapping value then return String.ofList filled
  else throw (.pattern "not all arguments converted during string formatting")

end TypedMarkup.Host.Pattern
