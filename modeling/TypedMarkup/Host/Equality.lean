import TypedMarkup.Host.Display
import TypedMarkup.Host.Numeric

/-!
Contract: equality of host values, and the sets it makes.

Owns: `Value.equal`, the equality that expressions test, and `Value.agrees`, by which collections
find a value. Numbers are equal by value whatever their types, texts of all kinds by content, text
nodes by kind and content, collections of one family by items, and ranges by the numbers they
have. All else is equal only to itself. A value agrees with itself even where it is not equal to
itself, as `nan` is not. `insertDistinct` keeps the first of agreeing values.
-/

namespace TypedMarkup

def sameObject : Option Identity → Option Identity → Bool
  | some left, some right => left == right
  | _, _ => false

def Document.Node.equal : Document.Node → Document.Node → Bool
  | .text left, .text right => left == right
  | .verbatim left, .verbatim right => left == right
  | .element left, .element right => sameObject left.identity right.identity
  | _, _ => false

/-- Whether two ranges, by their starts, stops and steps, have the same numbers in the same
order. -/
def sameRange : Int × Int × Int → Int × Int × Int → Bool
  | (start, stop, step), (start', stop', step') =>
    let length := Value.rangeLength start stop step
    length == Value.rangeLength start' stop' step' &&
      (length == 0 || start == start' && (length == 1 || step == step'))

def Value.equalPlain : Value → Value → Bool
  | .none, .none => true
  | .node left, .node right => left.equal right
  | .record _ left, .record _ right => left == right
  | .function _ _ left, .function _ _ right => left == right
  | .raiser _ _ left, .raiser _ _ right => left == right
  | .stream _ _ _ left, .stream _ _ _ right => left == right
  | .closure _ _ _ _ left, .closure _ _ _ _ right => left == right
  | .lazy _ left, .lazy _ right => left == right
  | .vocabulary left, .vocabulary right => left.name == right.name
  | .builtin left, .builtin right => left == right
  | .method left first, .method right second => left == right && first == second
  | .range start stop step, .range start' stop' step' =>
    sameRange (start, stop, step) (start', stop', step')
  | left, right =>
    match left.numeric?, right.numeric? with
    | some first, some second => first.same second
    | _, _ =>
      match left.content?, right.content? with
      | some first, some second => first == second
      | _, _ => false

def Value.sameNaN : Value → Value → Bool
  | .real .nan left, .real .nan right => sameObject left right
  | _, _ => false

def Value.tupleItems? : Value → Option (List Value)
  | .tuple items => some items
  | .spaced .list items => some items
  | _ => Option.none

def Value.setItems? : Value → Option (List Value)
  | .spaced .set items => some items
  | .plainSet items => some items
  | _ => Option.none

mutual

def Value.equal : Value → Value → Bool
  | .list left, .list right => agreeAll left right
  | .dict left, .dict right => left.length == right.length && entriesAmong left right
  | .tuple left, right =>
    match right.tupleItems? with
    | some items => agreeAll left items
    | Option.none => false
  | .spaced .list left, right =>
    match right.tupleItems? with
    | some items => agreeAll left items
    | Option.none => false
  | .spaced .set left, right =>
    match right.setItems? with
    | some items => left.length == items.length && allAmong left items
    | Option.none => false
  | .plainSet left, right =>
    match right.setItems? with
    | some items => left.length == items.length && allAmong left items
    | Option.none => false
  | left, right => left.equalPlain right

def agreeAll : List Value → List Value → Bool
  | [], [] => true
  | left :: lefts, right :: rights =>
    (left.sameNaN right || left.equal right) && agreeAll lefts rights
  | _, _ => false

def allAmong : List Value → List Value → Bool
  | [], _ => true
  | value :: rest, others =>
    (others.any fun other => value.sameNaN other || value.equal other) && allAmong rest others

def entriesAmong : List (Value × Value) → List (Value × Value) → Bool
  | [], _ => true
  | entry :: rest, others => others.any (agreeEntry entry) && entriesAmong rest others

def agreeEntry : Value × Value → Value × Value → Bool
  | (key, value), other =>
    (key.sameNaN other.1 || key.equal other.1) && (value.sameNaN other.2 || value.equal other.2)

end

/-- Whether a value is found where another one stands in a collection. -/
def Value.agrees (left right : Value) : Bool :=
  left.sameNaN right || left.equal right

/-- Adds a value at the end unless an agreeing one is there. -/
def insertDistinct (values : List Value) (value : Value) : List Value :=
  if values.any value.agrees then values else values ++ [value]

def distinctValues (values : List Value) : List Value :=
  values.foldl insertDistinct []

/-- Writes an entry of a dictionary: an agreeing key keeps its place and gets the new value. -/
def putEntry (key value : Value) : List (Value × Value) → List (Value × Value)
  | [] => [(key, value)]
  | entry :: rest =>
    if entry.1.agrees key then (entry.1, value) :: rest else entry :: putEntry key value rest

def entry? (entries : List (Value × Value)) (key : Value) : Option Value :=
  (entries.find? fun entry => entry.1.agrees key).map Prod.snd

end TypedMarkup
