import TypedMarkup.Host.Pattern
import TypedMarkup.Number.Based
import TypedMarkup.Text.Uppercase

/-!
Contract: the operations on host values that need no evaluation of terms.

Owns: arithmetic, order, subscripts, slices, attributes and length. An operation on values of the
wrong types, or outside its domain, is a failure.
-/

namespace TypedMarkup.Host

def trueQuotient (left right : Int) : Except Failure Value :=
  if right = 0 then .error (.divisionByZero "division by zero")
  else
    match Binary64.ofFraction ((left < 0) != (right < 0)) left.natAbs right.natAbs with
    | .infinite _ => .error .quotientTooLarge
    | found => .ok (.real found none)

def integerArithmetic (operator : Operator) (left right : Int) : Except Failure Value :=
  match operator with
  | .add => .ok (.int (left + right))
  | .subtract => .ok (.int (left - right))
  | .multiply => .ok (.int (left * right))
  | .divide => trueQuotient left right
  | .floorDivide =>
    if right = 0 then .error (.divisionByZero "integer division or modulo by zero")
    else .ok (.int (left.fdiv right))
  | .modulo =>
    if right = 0 then .error (.divisionByZero "integer modulo by zero")
    else .ok (.int (left.fmod right))

def realArithmetic (operator : Operator) (left right : Binary64) : Except Failure Value :=
  match operator with
  | .add => .ok (.real (left.add right) none)
  | .subtract => .ok (.real (left.subtract right) none)
  | .multiply => .ok (.real (left.multiply right) none)
  | .divide =>
    if right.isZero then .error (.divisionByZero "float division by zero")
    else .ok (.real (left.divide right) none)
  | .floorDivide =>
    if right.isZero then .error (.divisionByZero "float floor division by zero")
    else .ok (.real (left.floorDivide right) none)
  | .modulo =>
    if right.isZero then .error (.divisionByZero "float modulo")
    else .ok (.real (left.modulo right) none)

/-- Arithmetic on numbers: whole numbers stay whole, other pairs become floating point. -/
def numberArithmetic (operator : Operator) (left right : Numeric) : Except Failure Value :=
  match left, right with
  | .int first, .int second => integerArithmetic operator first second
  | first, second => do
    let leftReal ← realOf first
    let rightReal ← realOf second
    realArithmetic operator leftReal rightReal

def operandFailure (operator : Operator) (left right : Value) : Except Failure Value :=
  .error (.operands operator.symbol left.typeName right.typeName)

def concatenate (left right : Value) : Except Failure Value :=
  match left.content? with
  | some first =>
    match right.content? with
    | some second => .ok (.text (first ++ second))
    | none => .error (.concatenation "str" right.typeName)
  | none =>
    match left, right with
    | .list first, .list second => .ok (.list (first ++ second))
    | .list _, other => .error (.concatenation "list" other.typeName)
    | other, right =>
      match other.tupleItems? with
      | none => operandFailure .add other right
      | some first =>
        match right.tupleItems? with
        | some second => .ok (.tuple (first ++ second))
        | none => .error (.concatenation "tuple" right.typeName)

def copies {α : Type} (items : List α) (count : Int) : Except Failure (List α) :=
  if !isIndexSized count then .error .countTooLarge
  else if lengthLimit < items.length * count.toNat then .error .noRoom
  else .ok (List.replicate count.toNat items).flatten

def repeatedText (content : String) (count : Int) : Except Failure String :=
  let length := content.length * count.toNat
  if !isIndexSized count then .error .countTooLarge
  else if !isIndexSized length then .error .repeatedTooLong
  else if lengthLimit < length then .error .noRoom
  else if content.isEmpty then .ok ""
  else .ok (Nat.repeat (· ++ content) count.toNat "")

def repeater? (sequence : Value) : Option (Int → Except Failure Value) :=
  match sequence.content? with
  | some content => some fun count => (repeatedText content count).map .text
  | none =>
    match sequence with
    | .list items => some fun count => (copies items count).map .list
    | other => other.tupleItems?.map fun items count => (copies items count).map .tuple

def repetition (left right : Value) : Except Failure Value :=
  match repeater? left, repeater? right with
  | some repeated, _ =>
    match indexOf? right with
    | some count => repeated count
    | none => .error (.repetition right.typeName)
  | none, some repeated =>
    match indexOf? left with
    | some count => repeated count
    | none => .error (.repetition left.typeName)
  | none, none => operandFailure .multiply left right

def difference (left right : Value) : Except Failure Value :=
  match left.setItems?, right.setItems? with
  | some first, some second =>
    let kept := (walkOrder first first).filter fun value => !second.any value.agrees
    .ok (.plainSet kept)
  | _, _ => operandFailure .subtract left right

def negative (value : Value) : Except Failure Value :=
  match value.numeric? with
  | some (.int number) => .ok (.int (-number))
  | some (.real number) => .ok (.real number.negate none)
  | none => .error (.unaryOperand "-" value.typeName)

def positive (value : Value) : Except Failure Value :=
  match value.numeric? with
  | some (.int number) => .ok (.int number)
  | some (.real _) => .ok value
  | none => .error (.unaryOperand "+" value.typeName)

/-- Whether an order holds between two things of which it is known if either is below. -/
def holds (comparison : Comparison) (below above : Bool) : Bool :=
  match comparison with
  | .less => below
  | .greater => above
  | .lessEqual => !above
  | .greaterEqual => !below
  | _ => false

/-- Whether an order holds between numbers, with which `nan` has none. -/
def numbersOrdered (comparison : Comparison) (left right : Numeric) : Bool :=
  match comparison with
  | .less => left.less right
  | .greater => right.less left
  | .lessEqual => left.less right || left.same right
  | .greaterEqual => right.less left || left.same right
  | _ => false

/-- Whether an order holds between values that are no collections. -/
def plainOrdered (comparison : Comparison) (left right : Value) : Except Failure Bool :=
  match left.numeric?, right.numeric? with
  | some first, some second => .ok (numbersOrdered comparison first second)
  | _, _ =>
    match left.content?, right.content? with
    | some first, some second => .ok (holds comparison (first < second) (second < first))
    | _, _ => .error (.comparison comparison.symbol left.typeName right.typeName)

/-- Whether an order holds between two sets: a part is below the whole. -/
def setsOrdered (comparison : Comparison) (left right : List Value) : Bool :=
  let within := allAmong left right
  let around := allAmong right left
  match comparison with
  | .less => within && !around
  | .greater => around && !within
  | .lessEqual => within
  | .greaterEqual => around
  | _ => false

mutual

def ordered (comparison : Comparison) : Value → Value → Except Failure Bool
  | .list left, .list right => orderedAll comparison left right
  | .tuple left, .tuple right => orderedAll comparison left right
  | .tuple left, .spaced .list right => orderedAll comparison left right
  | .spaced .list left, .tuple right => orderedAll comparison left right
  | .spaced .list left, .spaced .list right => orderedAll comparison left right
  | left, right =>
    match left.setItems?, right.setItems? with
    | some first, some second => .ok (setsOrdered comparison first second)
    | _, _ => plainOrdered comparison left right

/-- Whether an order holds between two lists, by their first values that differ. -/
def orderedAll (comparison : Comparison) : List Value → List Value → Except Failure Bool
  | [], right => .ok (holds comparison (!right.isEmpty) false)
  | _ :: _, [] => .ok (holds comparison false true)
  | left :: lefts, right :: rights =>
    if left.agrees right then orderedAll comparison lefts rights
    else ordered comparison left right

end

mutual

/-- The type of the first part of a value that cannot be a key. -/
def unhashable? : Value → Option String
  | .list _ => some "list"
  | .dict _ => some "dict"
  | .tuple items => unhashableAmong? items
  | .spaced .list items => unhashableAmong? items
  | _ => none

def unhashableAmong? : List Value → Option String
  | [] => none
  | value :: rest =>
    match unhashable? value with
    | some found => some found
    | none => unhashableAmong? rest

end

def checkKey (value : Value) : Except Failure Unit :=
  match unhashable? value with
  | some typeName => .error (.unhashable typeName)
  | none => .ok ()

def occursIn (part whole : List Char) : Bool :=
  match whole with
  | [] => part.isEmpty
  | _ :: rest => part.isPrefixOf whole || occursIn part rest

def inRange (start stop step number : Int) : Bool :=
  (number - start).fmod step == 0 &&
    if 0 < step then start ≤ number && number < stop else stop < number && number ≤ start

def contains (value container : Value) : Except Failure Bool :=
  match container with
  | .list items => .ok (items.any value.agrees)
  | .tuple items => .ok (items.any value.agrees)
  | .spaced .list items => .ok (items.any value.agrees)
  | .spaced .set items => do
    checkKey value
    return items.any value.agrees
  | .plainSet items => do
    checkKey value
    return items.any value.agrees
  | .dict entries => do
    checkKey value
    return entries.any fun entry => entry.1.agrees value
  | .range start stop step =>
    .ok (((value.numeric?.bind Numeric.whole?).map (inRange start stop step)).getD false)
  | .vocabulary words =>
    match value with
    | .member word => .ok (word.vocabulary == words.name)
    | _ => .error (.operands "'in'" value.typeName "EnumType")
  | other =>
    match other.content? with
    | some whole =>
      match value.content? with
      | some part => .ok (occursIn part.toList whole.toList)
      | none => .error (.textMembership value.typeName)
    | none => .error (.notContainer other.typeName)

/-- The place that an index means in a sequence; negative ones count from the end. -/
def place? (length : Nat) (index : Int) : Option Nat :=
  let position := if index < 0 then index + length else index
  if 0 ≤ position ∧ position < length then some position.toNat else none

def indexFailure (what : String) (index : Int) : Failure :=
  if isIndexSized index then .indexRange what else .indexTooLarge

def itemAt? {α : Type} (items : List α) (index : Int) : Option α :=
  (place? items.length index).bind fun position => items[position]?

def itemAt (what : String) (items : List Value) (index : Int) : Except Failure Value :=
  match itemAt? items index with
  | some found => .ok found
  | none => .error (indexFailure what index)

/-- The failure to find a key. A key that is too long to be written fails once more as soon as the
failure is told. -/
def noKey (key : Value) : Failure :=
  if key.isLongLiteral then .missingLongKey else .missingKey key.display key.literal

def noItems : Value → Failure
  | .builtin (.kind name) => .classSubscript name
  | .builtin (.checked text) => .classSubscript text.name
  | .builtin (.spaced container) => .classSubscript container.name
  | other => .notSubscriptable other.typeName

def subscript (object index : Value) : Except Failure Value :=
  match object with
  | .list items =>
    match indexOf? index with
    | some position => itemAt "list" items position
    | none => .error (.containerIndex "list" index.typeName)
  | .dict entries => do
    checkKey index
    match entry? entries index with
    | some found => return found
    | none => throw (noKey index)
  | .range start stop step =>
    match indexOf? index with
    | some position =>
      match place? (Value.rangeLength start stop step) position with
      | some place => .ok (.int (start + step * place))
      | none => .error (.indexRange "range object")
    | none => .error (.containerIndex "range" index.typeName)
  | .vocabulary words => do
    checkKey index
    match index.content?.bind words.ofName? with
    | some word => return .member word
    | none => throw (noKey index)
  | other =>
    match other.content? with
    | some content =>
      match indexOf? index with
      | some position =>
        match itemAt? content.toList position with
        | some found => .ok (.text (String.singleton found))
        | none => .error (indexFailure "string" position)
      | none => .error (.textIndex index.typeName)
    | none =>
      match other.tupleItems? with
      | some items =>
        match indexOf? index with
        | some position => itemAt "tuple" items position
        | none => .error (.containerIndex "tuple" index.typeName)
      | none => .error (noItems other)

/-- Applies an arithmetic operator. A number that is `nan` has no identity yet. -/
def arithmetic (operator : Operator) (left right : Value) : Except Failure Value :=
  match left.numeric?, right.numeric? with
  | some first, some second => numberArithmetic operator first second
  | _, _ =>
    match operator with
    | .add => concatenate left right
    | .subtract => difference left right
    | .multiply => repetition left right
    | .modulo =>
      match left.content? with
      | some pattern => do
        let filled ← Pattern.fill subscript pattern right
        return if pattern.contains '%' then .text filled else left
      | none => operandFailure operator left right
    | _ => operandFailure operator left right

def sliceBound : Value → Except Failure (Option Int)
  | .none => .ok none
  | other =>
    match indexOf? other with
    | some position => .ok (some position)
    | none => .error .sliceIndex

/-- A bound of a slice as a place, cut to the sequence. -/
def clampBound (length : Nat) (step : Int) (bound : Int) : Int :=
  let low : Int := if step < 0 then -1 else 0
  let high : Int := if step < 0 then length - 1 else length
  let position := if bound < 0 then bound + length else bound
  if position < low then low else if high < position then high else position

/-- The first place of a slice, and the place that it stops before. -/
def sliceEnds (length : Nat) (start stop : Option Int) (step : Int) : Int × Int :=
  let first := match start with
    | some bound => clampBound length step bound
    | none => if step < 0 then (length : Int) - 1 else 0
  let last := match stop with
    | some bound => clampBound length step bound
    | none => if step < 0 then -1 else (length : Int)
  (first, last)

def slicePlaces (length : Nat) (start stop : Option Int) (step : Int) : List Nat :=
  let ends := sliceEnds length start stop step
  (List.range (Value.rangeLength ends.1 ends.2 step)).map fun index : Nat =>
    (ends.1 + step * index).toNat

def sliceItems {α : Type} (items : List α) (start stop : Option Int) (step : Int) : List α :=
  let indexed := items.toArray
  (slicePlaces indexed.size start stop step).filterMap fun place => indexed[place]?

def sliceBounds (start stop step : Value) : Except Failure (Option Int × Option Int × Int) := do
  let stepSize := (← sliceBound step).getD 1
  if stepSize = 0 then throw .sliceStep
  let first ← sliceBound start
  let last ← sliceBound stop
  return (first, last, stepSize)

def slice (object start stop step : Value) : Except Failure Value :=
  let cut {α : Type} (items : List α) : Except Failure (List α) := do
    let (first, last, stepSize) ← sliceBounds start stop step
    return sliceItems items first last stepSize
  match object with
  | .list items => (cut items).map .list
  | .dict _ => .error (.unhashable "slice")
  | .vocabulary _ => .error (.unhashable "slice")
  | .range rangeStart rangeStop rangeStep => do
    let (first, last, stepSize) ← sliceBounds start stop step
    let length := Value.rangeLength rangeStart rangeStop rangeStep
    let ends := sliceEnds length first last stepSize
    return .range (rangeStart + rangeStep * ends.1) (rangeStart + rangeStep * ends.2)
      (rangeStep * stepSize)
  | other =>
    match other.content? with
    | some content => (cut content.toList).map fun found => .text (String.ofList found)
    | none =>
      match other.tupleItems? with
      | some items => (cut items).map .tuple
      | none => .error (noItems other)

def textMethod? (name : String) : Option TextMethod :=
  [TextMethod.upper, .join].find? fun which => which.name == name

def classMethod? (name : String) : Option Value :=
  (textMethod? name).map fun which => .builtin (.textMethod which)

def attribute? (value : Value) (name : String) : Option Value :=
  match value with
  | .record fields _ => fields.lookup name
  | .vocabulary words => ((words.ofName? name).map .member) <|> classMethod? name
  | .builtin (.kind "str") => classMethod? name
  | .builtin (.checked _) => classMethod? name
  | .member word =>
    if name = "value" then some (.text word.text)
    else if name = "name" then some (.text word.name)
    else
      match ((Vocabulary.named? word.vocabulary).bind fun words => words.ofName? name) with
      | some other => some (.member other)
      | none => (textMethod? name).map (.method word.text)
  | other => other.content?.bind fun content => (textMethod? name).map (.method content)

def readAttribute (value : Value) (name : String) : Except Failure Value :=
  match attribute? value name with
  | some found => .ok found
  | none =>
    match value with
    | .vocabulary _ => .error (.noWord name)
    | .builtin (.kind className) => .error (.noClassAttribute className name)
    | .builtin (.checked text) => .error (.noClassAttribute text.name name)
    | .builtin (.spaced container) => .error (.noClassAttribute container.name name)
    | other => .error (.noAttribute other.typeName name)

def length? : Value → Option Nat
  | .list items => some items.length
  | .tuple items => some items.length
  | .dict entries => some entries.length
  | .spaced _ items => some items.length
  | .plainSet items => some items.length
  | .range start stop step => some (Value.rangeLength start stop step)
  | .vocabulary words => some words.entries.length
  | other => other.content?.map String.length

/-- The number of items of a value, unless it is too large to be counted. -/
def lengthOf (value : Value) : Except Failure Nat :=
  match length? value with
  | some length => if isIndexSized length then .ok length else .error .lengthTooLarge
  | none => .error (.noLength value.typeName)

/-- Checks that there is room for the items of a value whose number is known. -/
def checkRoom (value : Value) : Except Failure Unit :=
  match length? value with
  | some length =>
    if !isIndexSized length then .error .lengthTooLarge
    else if lengthLimit < length then .error .noRoom
    else .ok ()
  | none => .ok ()

def integerRead (base : Nat) (value : Value) : Number.IntegerReading → Except Failure Value
  | .value number => .ok (.int number)
  | .tooLong digits => .error (.integerDigits digits)
  | .malformed =>
    .error (.integerText base (String.ofList (value.literal.toList.take 200)))

def integerOf (value : Value) : Except Failure Value :=
  match value.numeric?, value.content? with
  | some number, _ => (wholePart number).map .int
  | none, some content => integerRead 10 value (Number.readInteger content)
  | none, none => .error (.integerArgument value.typeName)

def integerInBase (value base : Value) : Except Failure Value :=
  match indexOf? base with
  | none => .error (.integerRequired base.typeName)
  | some number =>
    if (number ≠ 0 ∧ number < 2) ∨ 36 < number then .error .integerBase
    else
      match value.content? with
      | some content =>
        integerRead number.toNat value (Number.readBased number.toNat content)
      | none => .error (.argumentCount "int() can't convert non-string with explicit base")

/-- How a message about a wrong option calls a value. -/
def optionTypeName : Value → String
  | .none => "None"
  | other => other.typeName

/-- The text that a value is converted to. There are no values that a text could be decoded from,
so an encoding is a failure. -/
def textOf : List Value → Except Failure Value
  | [] => .ok (.text "")
  | [value] => value.shown.map .text
  | value :: options =>
    if 2 < options.length then
      .error (.argumentCount s!"str() takes at most 3 arguments ({options.length + 1} given)")
    else
      match (["encoding", "errors"].zip options).find? (·.2.content?.isNone) with
      | some (name, option) =>
        .error (.argumentCount
          s!"str() argument '{name}' must be str, not {optionTypeName option}")
      | none =>
        if value.content?.isSome then .error (.argumentCount "decoding str is not supported")
        else
          .error (.argumentCount
            s!"decoding to str: need a bytes-like object, {value.typeName} found")

def floatOf (value : Value) : Except Failure Value :=
  match value.numeric?, value.content? with
  | some (.real _), _ => .ok value
  | some (.int number), _ => (realOfInt number).map fun found => .real found none
  | none, some content =>
    match Number.readReal? content with
    | some number => .ok (.real number none)
    | none => .error (.realText value.literal)
  | none, none => .error (.realArgument value.typeName)

def absoluteOf (value : Value) : Except Failure Value :=
  match value.numeric? with
  | some (.int number) => .ok (.int number.natAbs)
  | some (.real number) => .ok (.real number.absolute none)
  | none => .error (.absoluteOperand value.typeName)

def rangeOf (bounds : List Value) : Except Failure Value := do
  let numbers ← bounds.mapM fun bound =>
    match indexOf? bound with
    | some number => Except.ok number
    | none => .error (.integerRequired bound.typeName)
  match numbers with
  | [stop] => return .range 0 stop 1
  | [start, stop] => return .range start stop 1
  | [start, stop, step] => if step = 0 then throw .rangeStep else return .range start stop step
  | [] => throw (.argumentCount "range expected at least 1 argument, got 0")
  | many => throw (.argumentCount s!"range expected at most 3 arguments, got {many.length}")

def joined (separator : String) (items : List Value) : Except Failure Value := do
  let parts ← items.zipIdx.mapM fun (item, index) =>
    match item.content? with
    | some content => Except.ok content
    | none => .error (.joinItem index item.typeName)
  return .text (separator.intercalate parts)

/-- Takes values as long as each is below the one before it, or as long as none is. `run` has the
values taken so far, the last one first; what is left over is given too. -/
def takeRun (descending : Bool) (last : Value) (run : List Value) :
    List Value → Except Failure (List Value × List Value)
  | [] => .ok (run, [])
  | value :: rest => do
    if (← ordered .less value last) == descending then
      takeRun descending value (value :: run) rest
    else return (run, value :: rest)

/-- The place for a value among sorted ones, behind all that are not above it. The middle of what
is left is looked at each time. -/
def insertionPlace (value : Value) (items : Array Value) :
    (fuel low high : Nat) → Except Failure Nat
  | 0, low, _ => .ok low
  | fuel + 1, low, high =>
    if low < high then do
      let middle := low + (high - low) / 2
      if ← ordered .less value (items.getD middle .none) then
        insertionPlace value items fuel low middle
      else insertionPlace value items fuel (middle + 1) high
    else .ok low

def insertSorted (sorted : Array Value) (value : Value) : Except Failure (Array Value) := do
  let place ← insertionPlace value sorted (sorted.size + 1) 0 sorted.size
  return sorted.extract 0 place ++ #[value] ++ sorted.extract place sorted.size

/-- Values in ascending order; equal ones keep their order. The values at the start that are in
order already, or strictly in the opposite one, are taken as they are, and the others are put
among them one by one. -/
def sortValues : List Value → Except Failure (List Value)
  | first :: second :: rest => do
    let descending ← ordered .less second first
    let (run, others) ← takeRun descending second [second, first] rest
    let start := if descending then run else run.reverse
    let sorted ← others.foldlM insertSorted start.toArray
    return sorted.toList
  | short => .ok short

end TypedMarkup.Host
