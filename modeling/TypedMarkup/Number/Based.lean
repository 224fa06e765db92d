import TypedMarkup.Number.Reading

/-!
Contract: reading integers in a chosen base.

Owns: `readBased`. Digits above nine are letters of either case. The mark of base 2, 8 or 16 may
stand before the digits, and base 0 means the base that the mark says, or ten. Only bases that are
no powers of two limit the number of digits.
-/

namespace TypedMarkup.Number

def digitIn? (character : Char) : Option Nat :=
  if character.isDigit then some (character.toNat - 0x30)
  else if character.isAlpha then some (character.toLower.toNat - 0x61 + 10)
  else none

/-- The base that the mark at the start of a text says, and what follows the mark. -/
def baseMark? : List Char → Option (Nat × List Char)
  | '0' :: letter :: rest =>
    match letter.toLower with
    | 'x' => some (16, rest)
    | 'o' => some (8, rest)
    | 'b' => some (2, rest)
    | _ => none
  | _ => none

/-- The digits of a base. Underscores stand one at a time between two of them. -/
def digitsIn (base : Nat) (digitBefore : Bool) : List Char → Option (List Nat)
  | [] => if digitBefore then some [] else none
  | '_' :: rest => if digitBefore then digitsIn base false rest else none
  | character :: rest =>
    match digitIn? character with
    | some value =>
      if value < base then (digitsIn base true rest).map (value :: ·) else none
    | none => none

def isPowerOfTwo (base : Nat) : Bool := [2, 4, 8, 16, 32].contains base

def numberIn (base : Nat) (negative : Bool) (digits : List Nat) : IntegerReading :=
  if digitLimit < digits.length && !isPowerOfTwo base then .tooLong digits.length
  else
    .value (Binary64.signed negative (digits.foldl (fun number digit => base * number + digit) 0))

/-- Digits behind the mark of a base, before which an underscore may stand. -/
def behindMark (rest : List Char) : List Char :=
  match rest with
  | '_' :: digits => digits
  | digits => digits

/-- Reads an integer in a base from 2 to 36, or in the base that its mark says if the base is 0.
Without a mark, base 0 allows zeros at the start of zero only. -/
def readBased (base : Nat) (text : String) : IntegerReading :=
  let (negative, body) := splitSign (plain text)
  let (radix, digits, zeroOnly) :=
    match baseMark? body with
    | some (marked, rest) =>
      if base = 0 ∨ base = marked then (marked, behindMark rest, false)
      else (base, body, false)
    | none => if base = 0 then (10, body, body.head? == some '0') else (base, body, false)
  match digitsIn radix false digits with
  | none => .malformed
  | some values =>
    if zeroOnly && values.any (· != 0) then .malformed else numberIn radix negative values

end TypedMarkup.Number
