import TypedMarkup.Number.Shortest

/-!
Contract: floating point numbers with a chosen number of digits.

Owns: `Places.fixed`, digits behind the point, `Places.scientific`, digits behind the first one and
an exponent, and `Places.general`, the shorter of the two for a number of digits. The last digit
is the nearest one, and a half goes to the even neighbour. All of them write a number without its
sign, given as `mantissa * 2 ^ exponent`.
-/

namespace TypedMarkup.Places

/-- A number in units of `10 ^ tens`, rounded to a whole one. -/
def unitsOf (mantissa : Nat) (exponent tens : Int) : Nat :=
  let ten := Shortest.power 10 tens
  let two := Shortest.power 2 exponent
  Binary64.nearest (mantissa * two.1 * ten.2) (two.2 * ten.1)

/-- Digits with a point behind the first of them. A point at the end is left out unless `always`. -/
def withPoint (always : Bool) (whole : Nat) (digits : List Char) : List Char :=
  let behind := digits.drop whole
  digits.take whole ++ if behind.isEmpty && !always then [] else '.' :: behind

def filled (length number : Nat) : List Char :=
  let digits := Nat.toDigits 10 number
  List.replicate (length - digits.length) '0' ++ digits

/-- A number with a number of digits behind the point. -/
def fixed (always : Bool) (places mantissa : Nat) (exponent : Int) : List Char :=
  let digits := filled (places + 1) (unitsOf mantissa exponent (-places))
  withPoint always (digits.length - places) digits

/-- The digits of a number, one more than `places`, and the power of ten of the first of them. -/
def leading (places mantissa : Nat) (exponent : Int) : List Char × Int :=
  if mantissa = 0 then (List.replicate (places + 1) '0', 0)
  else
    let first := Shortest.decimalExponent mantissa exponent
    let digits := Nat.toDigits 10 (unitsOf mantissa exponent (first - places))
    if places + 1 < digits.length then (digits.dropLast, first + 1) else (digits, first)

/-- A number with a number of digits behind the first one, and its exponent. -/
def scientific (always : Bool) (places mantissa : Nat) (exponent : Int) : List Char :=
  let (digits, first) := leading places mantissa exponent
  withPoint always 1 digits ++ 'e' :: Binary64.exponentText first

/-- Digits behind a point without the zeros at their end. -/
def trimmed (always : Bool) (whole : Nat) (digits : List Char) : List Char :=
  let behind := (digits.drop whole).reverse.dropWhile (· == '0')
  withPoint always whole (digits.take whole ++ if always then digits.drop whole else behind.reverse)

/-- A number with a number of digits in all, with an exponent if it is far from one. Zeros at the
end are left out unless `always`. -/
def general (always : Bool) (count mantissa : Nat) (exponent : Int) : List Char :=
  let places := count - 1
  let (digits, first) := leading places mantissa exponent
  if -4 ≤ first ∧ first ≤ places then
    if first < 0 then
      trimmed always 1 (List.replicate (-first).toNat '0' ++ digits)
    else trimmed always (first.toNat + 1) digits
  else trimmed always 1 digits ++ 'e' :: Binary64.exponentText first

end TypedMarkup.Places
