/-!
Contract: floating point numbers of double precision, in exact arithmetic.

Owns: `Binary64`, its rounding (to the nearest number, a half to the even mantissa, past the
largest number to infinity), its arithmetic and its order.

A finite number is its sign, a mantissa below `2 ^ 53` and a power of two. The mantissa is at
least `2 ^ 52` unless the exponent is the least one, so each number has one form, and the two
zeros differ by their sign.
-/

namespace TypedMarkup

inductive Binary64 where
  | nan
  | infinite (negative : Bool)
  | finite (negative : Bool) (mantissa : Nat) (exponent : Int)
deriving DecidableEq, Repr

namespace Binary64

def leastExponent : Int := -1074

def greatestExponent : Int := 971

def mantissaLimit : Nat := Nat.pow 2 53

def zero (negative : Bool) : Binary64 := finite negative 0 leastExponent

/-- The whole number nearest to a quotient, a half to the even neighbour. -/
def nearest (numerator denominator : Nat) : Nat :=
  let quotient := numerator / denominator
  let twice := 2 * (numerator % denominator)
  if twice < denominator then quotient
  else if denominator < twice then quotient + 1
  else quotient + quotient % 2

/-- A fraction divided by a power of two, as numerator and denominator. -/
def scaled (numerator denominator : Nat) (exponent : Int) : Nat × Nat :=
  (numerator * Nat.pow 2 (-exponent).toNat, denominator * Nat.pow 2 exponent.toNat)

/-- The exponent at which a positive fraction has a mantissa of full length, or the least one. -/
def exponentOf (numerator denominator : Nat) : Int :=
  let guess : Int := (numerator.log2 : Int) - denominator.log2 - 52
  let fraction := scaled numerator denominator guess
  max leastExponent (if fraction.1 / fraction.2 < Nat.pow 2 52 then guess - 1 else guess)

def assemble (negative : Bool) (mantissa : Nat) (exponent : Int) : Binary64 :=
  if mantissa = mantissaLimit then
    if greatestExponent < exponent + 1 then infinite negative
    else finite negative (Nat.pow 2 52) (exponent + 1)
  else if greatestExponent < exponent then infinite negative
  else finite negative mantissa exponent

def ofFraction (negative : Bool) (numerator denominator : Nat) : Binary64 :=
  if numerator = 0 then zero negative
  else
    let exponent := exponentOf numerator denominator
    let fraction := scaled numerator denominator exponent
    assemble negative (nearest fraction.1 fraction.2) exponent

def ofInt (number : Int) : Binary64 :=
  ofFraction (number < 0) number.natAbs 1

/-- Whether a number is below zero or the negative zero. -/
def isNegative : Binary64 → Bool
  | nan => false
  | infinite negative => negative
  | finite negative _ _ => negative

def isZero : Binary64 → Bool
  | finite _ 0 _ => true
  | _ => false

/-- The size of a finite number, as numerator and denominator. -/
def magnitude (mantissa : Nat) (exponent : Int) : Nat × Nat :=
  (mantissa * Nat.pow 2 exponent.toNat, Nat.pow 2 (-exponent).toNat)

def signed (negative : Bool) (number : Nat) : Int :=
  if negative then -(number : Int) else number

def fraction? : Binary64 → Option (Int × Nat)
  | finite negative mantissa exponent =>
    let size := magnitude mantissa exponent
    some (signed negative size.1, size.2)
  | _ => none

/-- The number nearest to a signed fraction; a zero gets the given sign. -/
def ofSigned (zeroNegative : Bool) (numerator : Int) (denominator : Nat) : Binary64 :=
  if numerator = 0 then zero zeroNegative
  else ofFraction (numerator < 0) numerator.natAbs denominator

def negate : Binary64 → Binary64
  | nan => nan
  | infinite negative => infinite !negative
  | finite negative mantissa exponent => finite (!negative) mantissa exponent

def absolute : Binary64 → Binary64
  | nan => nan
  | infinite _ => infinite false
  | finite _ mantissa exponent => finite false mantissa exponent

def add (left right : Binary64) : Binary64 :=
  match left, right with
  | nan, _ => nan
  | _, nan => nan
  | infinite first, infinite second => if first = second then infinite first else nan
  | infinite negative, finite _ _ _ => infinite negative
  | finite _ _ _, infinite negative => infinite negative
  | finite first firstMantissa firstExponent, finite second secondMantissa secondExponent =>
    let leftSize := magnitude firstMantissa firstExponent
    let rightSize := magnitude secondMantissa secondExponent
    ofSigned (first && second)
      (signed first (leftSize.1 * rightSize.2) + signed second (rightSize.1 * leftSize.2))
      (leftSize.2 * rightSize.2)

def subtract (left right : Binary64) : Binary64 :=
  add left (negate right)

def multiply (left right : Binary64) : Binary64 :=
  let negative := left.isNegative != right.isNegative
  match left, right with
  | nan, _ => nan
  | _, nan => nan
  | infinite _, other => if other.isZero then nan else infinite negative
  | other, infinite _ => if other.isZero then nan else infinite negative
  | finite _ firstMantissa firstExponent, finite _ secondMantissa secondExponent =>
    let leftSize := magnitude firstMantissa firstExponent
    let rightSize := magnitude secondMantissa secondExponent
    ofFraction negative (leftSize.1 * rightSize.1) (leftSize.2 * rightSize.2)

/-- The quotient of two numbers, the second of which is no zero. -/
def divide (left right : Binary64) : Binary64 :=
  let negative := left.isNegative != right.isNegative
  match left, right with
  | nan, _ => nan
  | _, nan => nan
  | infinite _, infinite _ => nan
  | infinite _, finite _ _ _ => infinite negative
  | finite _ _ _, infinite _ => zero negative
  | finite _ firstMantissa firstExponent, finite _ secondMantissa secondExponent =>
    let leftSize := magnitude firstMantissa firstExponent
    let rightSize := magnitude secondMantissa secondExponent
    ofFraction negative (leftSize.1 * rightSize.2) (leftSize.2 * rightSize.1)

/-- What is left of the first number after whole multiples of the second, with the first's sign. -/
def remainder (left right : Binary64) : Binary64 :=
  match left, right with
  | finite negative firstMantissa firstExponent, finite _ secondMantissa secondExponent =>
    let leftSize := magnitude firstMantissa firstExponent
    let rightSize := magnitude secondMantissa secondExponent
    ofFraction negative ((leftSize.1 * rightSize.2) % (rightSize.1 * leftSize.2))
      (leftSize.2 * rightSize.2)
  | finite negative mantissa exponent, infinite _ => finite negative mantissa exponent
  | _, _ => nan

/-- The remainder with the sign of the second number, which is no zero. -/
def modulo (left right : Binary64) : Binary64 :=
  let rest := remainder left right
  if rest.isZero then zero right.isNegative
  else if rest.isNegative != right.isNegative then add rest right
  else rest

def floor : Binary64 → Binary64
  | finite negative mantissa exponent =>
    let size := magnitude mantissa exponent
    ofSigned negative ((signed negative size.1).fdiv size.2) 1
  | other => other

/-- Whether the first number is below the second. Nothing is below or above `nan`. -/
def less (left right : Binary64) : Bool :=
  match left, right with
  | nan, _ => false
  | _, nan => false
  | infinite first, infinite second => first && !second
  | infinite negative, finite _ _ _ => negative
  | finite _ _ _, infinite negative => !negative
  | finite first firstMantissa firstExponent, finite second secondMantissa secondExponent =>
    let leftSize := magnitude firstMantissa firstExponent
    let rightSize := magnitude secondMantissa secondExponent
    signed first (leftSize.1 * rightSize.2) < signed second (rightSize.1 * leftSize.2)

/-- Whether two numbers are equal. The zeros are equal, and `nan` is equal to nothing. -/
def same (left right : Binary64) : Bool :=
  match left, right with
  | nan, _ => false
  | _, nan => false
  | _, _ => !less left right && !less right left

/-- The quotient of two numbers rounded down to a whole number; the second is no zero. -/
def floorDivide (left right : Binary64) : Binary64 :=
  let rest := remainder left right
  let quotient := divide (subtract left rest) right
  let lowered :=
    if !rest.isZero && rest.isNegative != right.isNegative then
      subtract quotient (ofInt 1)
    else quotient
  if lowered.isZero then zero (left.isNegative != right.isNegative)
  else
    let below := floor lowered
    if less (ofFraction false 1 2) (subtract lowered below) then add below (ofInt 1) else below

/-- Whether a number and a whole number are in order, compared exactly. -/
def lessInt (left : Binary64) (right : Int) : Bool :=
  match left with
  | nan => false
  | infinite negative => negative
  | finite negative mantissa exponent =>
    let size := magnitude mantissa exponent
    signed negative size.1 < right * size.2

/-- Whether a whole number and a number are in order, compared exactly. -/
def intLess (left : Int) (right : Binary64) : Bool :=
  match right with
  | nan => false
  | infinite negative => !negative
  | finite negative mantissa exponent =>
    let size := magnitude mantissa exponent
    left * size.2 < signed negative size.1

def sameInt (left : Binary64) (right : Int) : Bool :=
  match left with
  | finite negative mantissa exponent =>
    let size := magnitude mantissa exponent
    signed negative size.1 == right * size.2
  | _ => false

/-- The whole part of a finite number, towards zero. -/
def truncate? : Binary64 → Option Int
  | finite negative mantissa exponent =>
    let size := magnitude mantissa exponent
    some (signed negative (size.1 / size.2))
  | _ => none

end Binary64

end TypedMarkup
