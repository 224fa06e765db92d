import TypedMarkup.Host.Value

/-!
Contract: host values as numbers.

Owns: `Numeric`, whole and floating point numbers on one line, and the numbers of values. Truth
values count as one and zero.
-/

namespace TypedMarkup

/-- Numbers, with truth values as one and zero. -/
inductive Numeric where
  | int (value : Int)
  | real (value : Binary64)
deriving DecidableEq, Repr

def Value.numeric? : Value → Option Numeric
  | .bool value => some (.int (if value then 1 else 0))
  | .int value => some (.int value)
  | .real value _ => some (.real value)
  | _ => Option.none

namespace Numeric

def same : Numeric → Numeric → Bool
  | int left, int right => left == right
  | int left, real right => right.sameInt left
  | real left, int right => left.sameInt right
  | real left, real right => left.same right

def less : Numeric → Numeric → Bool
  | int left, int right => left < right
  | int left, real right => Binary64.intLess left right
  | real left, int right => left.lessInt right
  | real left, real right => left.less right

def whole? : Numeric → Option Int
  | int value => some value
  | real value => value.truncate?.filter value.sameInt

end Numeric

namespace Host

/-- The floating point number of a whole number, unless it is too large for one. -/
def realOfInt (number : Int) : Except Failure Binary64 :=
  match Binary64.ofInt number with
  | .infinite _ => .error .tooLarge
  | found => .ok found

def realOf : Numeric → Except Failure Binary64
  | .int value => realOfInt value
  | .real value => .ok value

/-- The whole number of a value that can be used as an index. -/
def indexOf? : Value → Option Int
  | .bool value => some (if value then 1 else 0)
  | .int value => some value
  | _ => none

def wholePart : Numeric → Except Failure Int
  | .int number => .ok number
  | .real .nan => .error (.integerOfReal "NaN" false)
  | .real (.infinite _) => .error (.integerOfReal "infinity" true)
  | .real number => .ok (number.truncate?.getD 0)

/-- Whether a number can count the items of a sequence. -/
def isIndexSized (number : Int) : Bool :=
  -(Nat.pow 2 63 : Int) ≤ number && number < Nat.pow 2 63

def lengthLimit : Nat := Nat.pow 10 8

end Host

end TypedMarkup
