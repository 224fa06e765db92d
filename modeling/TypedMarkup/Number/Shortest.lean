import TypedMarkup.Number.Binary64

/-!
Contract: the decimal text of a floating point number.

Owns: `Shortest.digits`, the fewest decimal digits that read back as the number, nearest to it
among those, and `Binary64.text`, which writes them.

Numbers from `10 ^ -4` up to `10 ^ 16` are written with a point, others with an exponent of at
least two digits. A whole number keeps one zero behind the point.
-/

namespace TypedMarkup

namespace Shortest

/-- A decimal number: its coefficient and the power of ten it counts. -/
structure Decimal where
  coefficient : Nat
  exponent : Int
deriving DecidableEq, Repr

/-- A power of ten or two as numerator and denominator. -/
def power (base : Nat) (exponent : Int) : Nat × Nat :=
  (Nat.pow base exponent.toNat, Nat.pow base (-exponent).toNat)

def compareAt (left : Nat) (tens : Int) (right : Nat) (twos : Int) : Ordering :=
  let ten := power 10 tens
  let two := power 2 twos
  compare (left * ten.1 * two.2) (right * two.1 * ten.2)

/-- The greatest power of ten not above `mantissa * 2 ^ exponent`. -/
def decimalExponent (mantissa : Nat) (exponent : Int) : Int :=
  let guess : Int := ((mantissa.log2 + exponent) * 30103).fdiv 100000
  if compareAt 1 (guess + 1) mantissa exponent != .gt then guess + 1
  else if compareAt 1 guess mantissa exponent == .gt then guess - 1
  else guess

/-- The numbers that round to a finite number, in quarters of its last place: the lower end, the
upper end, and whether the ends belong to them. -/
structure Interval where
  low : Nat
  high : Nat
  closed : Bool
deriving DecidableEq, Repr

/-- The interval of the numbers that round to `mantissa * 2 ^ exponent`. -/
def interval (mantissa : Nat) (exponent : Int) : Interval :=
  { low := if mantissa = Nat.pow 2 52 ∧ Binary64.leastExponent < exponent then 4 * mantissa - 1
           else 4 * mantissa - 2
    high := 4 * mantissa + 2
    closed := mantissa % 2 == 0 }

/-- Whether `coefficient * 10 ^ tens` lies in an interval of quarters of `2 ^ exponent`. -/
def Interval.contains (range : Interval) (exponent : Int) (coefficient : Nat) (tens : Int) :
    Bool :=
  match compareAt coefficient tens range.low (exponent - 2),
      compareAt coefficient tens range.high (exponent - 2) with
  | .gt, .lt => true
  | .eq, _ => range.closed
  | _, .eq => range.closed
  | _, _ => false

/-- Of the two neighbours of a number on a decimal grid, one that reads back: the nearer, and the
even one of a tie. -/
def onGrid? (mantissa : Nat) (exponent tens : Int) : Option Nat :=
  let ten := power 10 tens
  let two := power 2 exponent
  let numerator := mantissa * two.1 * ten.2
  let denominator := two.2 * ten.1
  let below := numerator / denominator
  let range := interval mantissa exponent
  match range.contains exponent below tens, range.contains exponent (below + 1) tens with
  | true, true => some (Binary64.nearest numerator denominator)
  | true, false => some below
  | false, true => some (below + 1)
  | false, false => none

/-- Tries grids of more and more digits, the first of which has its unit at `tens`. -/
def search (mantissa : Nat) (exponent : Int) : (grids : Nat) → (tens : Int) → Decimal
  | 0, tens => ⟨0, tens⟩
  | grids + 1, tens =>
    match onGrid? mantissa exponent tens with
    | some coefficient => ⟨coefficient, tens⟩
    | none => search mantissa exponent grids (tens - 1)

/-- The shortest decimal that reads back as `mantissa * 2 ^ exponent`. -/
def digits (mantissa : Nat) (exponent : Int) : Decimal :=
  search mantissa exponent 18 (decimalExponent mantissa exponent)

end Shortest

namespace Binary64

/-- A decimal exponent with its sign and at least two digits. -/
def exponentText (exponent : Int) : List Char :=
  let digits := Nat.toDigits 10 exponent.natAbs
  (if exponent < 0 then '-' else '+') ::
    (if digits.length < 2 then '0' :: digits else digits)

/-- Digits with a point or an exponent. `point` counts the digits before the decimal point. -/
def layout (digits : List Char) (point : Int) : List Char :=
  if -4 < point ∧ point ≤ 16 then
    if point ≤ 0 then '0' :: '.' :: List.replicate (-point).toNat '0' ++ digits
    else if digits.length ≤ point.toNat then
      digits ++ List.replicate (point.toNat - digits.length) '0' ++ ['.', '0']
    else digits.take point.toNat ++ '.' :: digits.drop point.toNat
  else
    digits.take 1 ++ (if digits.length ≤ 1 then [] else '.' :: digits.drop 1) ++
      'e' :: exponentText (point - 1)

def positiveText (mantissa : Nat) (exponent : Int) : List Char :=
  let shortest := Shortest.digits mantissa exponent
  let written := Nat.toDigits 10 shortest.coefficient
  layout ((written.reverse.dropWhile (· == '0')).reverse) (written.length + shortest.exponent)

def text : Binary64 → String
  | nan => "nan"
  | infinite negative => if negative then "-inf" else "inf"
  | finite negative mantissa exponent =>
    String.ofList ((if negative then ['-'] else []) ++
      (if mantissa = 0 then ['0', '.', '0'] else positiveText mantissa exponent))

end Binary64

end TypedMarkup
