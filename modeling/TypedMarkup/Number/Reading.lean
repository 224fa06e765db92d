import TypedMarkup.Number.Binary64
import TypedMarkup.Text.Blank
import TypedMarkup.Text.Numeral

/-!
Contract: reading numbers from text.

Owns: `readInteger?` and `readReal?`. Digits may be decimal digits of any script, single
underscores may stand between digits, and blanks may stand around the number. An integer has at
most `digitLimit` digits.
-/

namespace TypedMarkup.Number

def digitLimit : Nat := 4300

/-- A character as number readers see it: digits of other scripts are digits, their blanks are
blanks, and their other characters are never part of a number. -/
def plainCharacter (character : Char) : Char :=
  if character.toNat < 0x7F then character
  else
    match Text.digitValue? character with
    | some value => Char.ofNat (0x30 + value)
    | none => if Text.isBlank character then ' ' else '?'

/-- The blanks that may stand around a number. -/
def isPadding (character : Char) : Bool :=
  character == ' ' || (0x09 ≤ character.toNat && character.toNat ≤ 0x0D)

/-- A text as number readers see it, without the blanks around it. -/
def plain (text : String) : List Char :=
  Text.trimWhere isPadding (text.toList.map plainCharacter)

/-- Removes underscores, each of which must stand between two digits. `digitBefore` tells whether
a digit stands before the text. -/
def withoutUnderscores (digitBefore : Bool) : List Char → Option (List Char)
  | [] => some []
  | '_' :: next :: rest =>
    if digitBefore && next.isDigit then (withoutUnderscores true rest).map (next :: ·) else none
  | character :: rest =>
    if character == '_' then none
    else (withoutUnderscores character.isDigit rest).map (character :: ·)

def ofDigits (digits : List Char) : Nat :=
  digits.foldl (fun number digit => 10 * number + (digit.toNat - 0x30)) 0

def splitSign : List Char → Bool × List Char
  | '-' :: rest => (true, rest)
  | '+' :: rest => (false, rest)
  | other => (false, other)

inductive IntegerReading where
  | value (number : Int)
  | tooLong (digits : Nat)
  | malformed
deriving DecidableEq, Repr

def readInteger (text : String) : IntegerReading :=
  match withoutUnderscores false (plain text) with
  | none => .malformed
  | some characters =>
    let (negative, digits) := splitSign characters
    if digits.isEmpty || !digits.all Char.isDigit then .malformed
    else if digitLimit < digits.length then .tooLong digits.length
    else .value (Binary64.signed negative (ofDigits digits))

def readInteger? (text : String) : Option Int :=
  match readInteger text with
  | .value number => some number
  | _ => none

/-- A decimal number as written: digits before the point, digits behind it, and the exponent. -/
structure Written where
  whole : List Char
  rest : List Char
  exponent : Int
deriving DecidableEq, Repr

/-- Reads the exponent of a decimal number, which must be all of the text. -/
def readExponent? : List Char → Option Int
  | [] => some 0
  | mark :: rest =>
    if mark == 'e' || mark == 'E' then
      let (negative, digits) := splitSign rest
      if digits.isEmpty || !digits.all Char.isDigit then none
      else some (Binary64.signed negative (ofDigits digits))
    else none

def readWritten? (text : List Char) : Option Written :=
  let whole := text.takeWhile Char.isDigit
  let behind := text.dropWhile Char.isDigit
  let (rest, tail) :=
    match behind with
    | '.' :: fraction => (fraction.takeWhile Char.isDigit, fraction.dropWhile Char.isDigit)
    | other => ([], other)
  if whole.isEmpty && rest.isEmpty then none
  else (readExponent? tail).map fun exponent => ⟨whole, rest, exponent⟩

/-- The floating point number nearest to a decimal number. Sizes far outside the range of the
numbers need no exact arithmetic. -/
def Written.round (written : Written) (negative : Bool) : Binary64 :=
  let digits := (written.whole ++ written.rest).dropWhile (· == '0')
  let scale : Int := written.exponent - written.rest.length
  let size : Int := scale + digits.length
  if digits.isEmpty then .zero negative
  else if 400 < size then .infinite negative
  else if size < -400 then .zero negative
  else .ofFraction negative (ofDigits digits * Nat.pow 10 scale.toNat)
    (Nat.pow 10 (-scale).toNat)

/-- Reads a floating point number: a decimal number, an infinity or a `nan`, with a sign. -/
def readReal? (text : String) : Option Binary64 :=
  (withoutUnderscores false (plain text)).bind fun characters =>
    let (negative, body) := splitSign characters
    let word := String.ofList (body.map Char.toLower)
    if word == "inf" || word == "infinity" then some (.infinite negative)
    else if word == "nan" then some .nan
    else (readWritten? body).map fun written => written.round negative

end TypedMarkup.Number
