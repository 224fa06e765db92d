import TypedMarkup.Host.Arguments
import TypedMarkup.Host.CheckedName
import TypedMarkup.Host.Memory

/-!
Contract: the values of host terms.

Owns: `eval`, calls, and iterations one item at a time. Generators and mapped sequences run only as
far as items are asked for. A comprehension is a function of its own: its first source is evaluated
outside of it, everything else inside.

Every step takes one unit of fuel; `steps` is the fuel that evaluation starts with. How deep calls
can be nested is limited by the memory, not by the fuel.
-/

namespace TypedMarkup.Host

def wordOf (words : Vocabulary) (value : Value) : Except Failure Value :=
  match value.content?.bind words.ofText? with
  | some word => .ok (.member word)
  | none => do throw (.invalidWord (← value.shownLiteral) words.name)

/-- Whether all characters of an item are in a class; `method` is what a text is asked for it. -/
def consistsOf (inClass : Char → Bool) (method : String) (item : Value) : Except Failure Bool :=
  match item.content? with
  | some content => .ok (!content.isEmpty && content.toList.all inClass)
  | none => .error (.noAttribute item.typeName method)

def followsInName (item : Value) : Except Failure Bool := do
  if ← consistsOf Text.isAlphanumeric "isalnum" item then return true
  else return occursIn ((item.content?.getD "").toList) ['_', '-', '.']

/-- Checks a sequence as if its items were the characters of a name. -/
def checkNameItems (kind : CheckedText) (value : Value) : Except Failure Unit := do
  if !value.isTrue then throw (.rejected (.emptyName kind.noun))
  let first ← subscript value (.int 0)
  if !(← consistsOf Text.isLetter "isalpha" first) then
    throw (.rejected (.nameStart kind.noun))
  let rest ← slice value (.int 1) .none .none
  let fitting ← ((plainItems? rest).getD []).allM followsInName
  if !fitting then throw (.rejected (.nameCharacter kind.noun))

/-- Makes a checked text. A value that is no text is checked by its items. -/
def checkedOf (kind : CheckedText) (value : Value) : Except Failure Value :=
  match value.content? with
  | some content =>
    match kind.check content with
    | .ok () => .ok (.checked kind content)
    | .error rejection => .error (.rejected rejection)
  | none => do
    checkNameItems kind value
    return .checked kind (← value.shown)

def spacedSetOf (items : List Value) : Except Failure Value := do
  let found ← items.foldlM (fun found item => do
    checkKey item
    return insertDistinct found item) []
  return .spaced .set found

def makerSignature (name : String) : Signature := ⟨name, ["value"], none⟩

def makerArgument (name : String) (positional : List Value) (named : List (String × Value)) :
    Except Failure Value :=
  ((makerSignature name).bind [] positional named).map fun bound =>
    (bound.lookup "value").getD .none

def Collection.functionName : Collection → String
  | .list => "<listcomp>"
  | .generator => "<genexpr>"
  | .dict => "<dictcomp>"

mutual

def eval : (fuel : Nat) → Frame → Term → Run Value
  | 0, _, _ => throw .tooDeep
  | fuel + 1, frame, term =>
    match term with
    | .none => return .none
    | .bool value => return .bool value
    | .int value => return .int value
    | .real value => return .real value none
    | .text value => return .text value
    | .name identifier => readName frame identifier
    | .attributeOf object name => do
      readAttribute (← eval fuel frame object) name
    | .call function positional keywords named => do
      let callee ← eval fuel frame function
      let arguments ← positional.mapM (eval fuel frame)
      let values ← named.mapM (eval fuel frame)
      call fuel callee arguments (keywords.zip values)
    | .list items => do return .list (← items.mapM (eval fuel frame))
    | .tuple items => do return .tuple (← items.mapM (eval fuel frame))
    | .dict entries => do
      let pairs ← entries.mapM fun entry => do
        let key ← eval fuel frame entry.1
        let value ← eval fuel frame entry.2
        return (key, value)
      let written ← pairs.foldlM (fun written pair => do
        checkKey pair.1
        return putEntry pair.1 pair.2 written) []
      return .dict written
    | .subscript object (.slice start stop step) => do
      let sequence ← eval fuel frame object
      let first ← eval fuel frame start
      let last ← eval fuel frame stop
      let size ← eval fuel frame step
      slice sequence first last size
    | .subscript object index => do
      let collection ← eval fuel frame object
      let key ← eval fuel frame index
      if index.hasSlice && collection.hasKeys then throw (.unhashable "slice")
      subscript collection key
    | .slice start stop step => do
      let first ← eval fuel frame start
      let last ← eval fuel frame stop
      let size ← eval fuel frame step
      return .tuple [first, last, size]
    | .negate operand => do
      let value ← eval fuel frame operand
      Run.settled (← negative value)
    | .plus operand => do positive (← eval fuel frame operand)
    | .not operand => do return .bool (!(← eval fuel frame operand).isTrue)
    | .binary operator left right => do
      let first ← eval fuel frame left
      let second ← eval fuel frame right
      Run.settled (← arithmetic operator first second)
    | .compare first comparisons others => do
      let left ← eval fuel frame first
      compareChain fuel frame left (comparisons.zip others)
    | .and left right => do
      let first ← eval fuel frame left
      if first.isTrue then eval fuel frame right else return first
    | .or left right => do
      let first ← eval fuel frame left
      if first.isTrue then return first else eval fuel frame right
    | .conditional condition consequent alternative => do
      let chosen ← eval fuel frame condition
      if chosen.isTrue then eval fuel frame consequent else eval fuel frame alternative
    | .lambda parameters defaults collector body => do
      let values ← defaults.mapM (eval fuel frame)
      let signature : Signature := ⟨frame.path ++ "<lambda>", parameters, collector⟩
      return .closure signature values body frame.scopes (← Run.identity)
    | .comprehension collection target source rest => do
      let origin ← eval fuel frame source
      let items ← iterate origin
      let own ← Run.declare (distinct (target.identifiers ++ rest.identifiers))
      let inside := frame.inComprehension collection.functionName own
      let reference ← Run.begin (.generator inside [⟨target, items, rest⟩])
      match collection with
      | .list => return .list (← drain fuel reference [])
      | .dict => return .dict (← drainEntries fuel reference [])
      | .generator => return .lazy .generator reference

def compareChain : (fuel : Nat) → Frame → Value → List (Comparison × Term) → Run Value
  | 0, _, _, _ => throw .tooDeep
  | _, _, _, [] => return .bool true
  | fuel + 1, frame, left, (comparison, other) :: rest => do
    let right ← eval fuel frame other
    let result ← compareValues fuel comparison left right
    if result && !rest.isEmpty then compareChain fuel frame right rest
    else return .bool result

def compareValues : (fuel : Nat) → Comparison → Value → Value → Run Bool
  | 0, _, _, _ => throw .tooDeep
  | fuel + 1, comparison, left, right =>
    match comparison with
    | .equal => return left.equal right
    | .unequal => return !left.equal right
    | .member => isMember fuel left right
    | .nonmember => do return !(← isMember fuel left right)
    | order => ordered order left right

/-- Whether a value is in a collection. Items of a lazy one are taken up to the value. -/
def isMember : (fuel : Nat) → Value → Value → Run Bool
  | 0, _, _ => throw .tooDeep
  | fuel + 1, value, container =>
    match container with
    | .lazy _ reference => search fuel value reference
    | .stream _ _ _ _ => do search fuel value (← iterate container)
    | _ => contains value container

def search : (fuel : Nat) → Value → Nat → Run Bool
  | 0, _, _ => throw .tooDeep
  | fuel + 1, value, reference => do
    match ← next fuel reference with
    | none => return false
    | some item => if value.agrees item then return true else search fuel value reference

def call : (fuel : Nat) → Value → List Value → List (String × Value) → Run Value
  | 0, _, _, _ => throw .tooDeep
  | fuel + 1, callee, positional, named =>
    match callee with
    | .function _ result _ => return result
    | .raiser _ text _ => throw (.raised text)
    | .closure signature defaults body scopes _ => do
      let bound ← signature.bind defaults positional named
      let own ← Run.declareWith bound
      Run.nested (eval fuel (.inFunction scopes signature.name own) body)
    | .builtin .makeText => do
      let value ← makerArgument "text" positional named
      return .node (.text (← value.shown))
    | .builtin .makeVerbatim => do
      let value ← makerArgument "unsafe_text" positional named
      return .node (.verbatim (← value.shown))
    | other =>
      match named with
      | [] => callPlain fuel other positional
      | _ :: _ =>
        if other.isCallable then
          argumentFailure s!"{other.callName}() takes no keyword arguments"
        else throw (.notCallable other.typeName)

/-- Calls a value that is no function of its own with positional arguments. -/
def callPlain : (fuel : Nat) → Value → List Value → Run Value
  | 0, _, _ => throw .tooDeep
  | fuel + 1, callee, arguments =>
    match callee with
    | .vocabulary words =>
      match arguments with
      | [] =>
        argumentFailure
          "EnumType.__call__() missing 1 required positional argument: 'value'"
      | [value] => wordOf words value
      | value :: _ => do
        let shown ← value.shownLiteral
        argumentFailure s!"<enum {shown}> cannot extend <enum '{words.name}'>"
    | .builtin (.textMethod which) =>
      match arguments with
      | [] => argumentFailure s!"unbound method str.{which.name}() needs an argument"
      | text :: rest =>
        match text.content? with
        | some content => callPlain fuel (.method content which) rest
        | none =>
          argumentFailure (s!"descriptor '{which.name}' for 'str' objects doesn't apply " ++
            s!"to a '{text.typeName}' object")
    | .method content .upper =>
      if arguments.isEmpty then return .text (Text.uppercase content)
      else argumentFailure s!"str.upper() takes no arguments ({arguments.length} given)"
    | .method content .join =>
      match arguments with
      | [source] =>
        if source.isIterable then do joined content (← itemsOf fuel source)
        else throw .joinArgument
      | _ =>
        argumentFailure s!"str.join() takes exactly one argument ({arguments.length} given)"
    | .builtin (.checked kind) =>
      match arguments with
      | [value] => checkedOf kind value
      | [] =>
        argumentFailure
          (kind.name ++ ".__new__() missing 1 required positional argument: 'value'")
      | many =>
        argumentFailure
          (s!"{kind.name}.__new__() takes 2 positional arguments but " ++
            s!"{many.length + 1} were given")
    | .builtin (.spaced .set) =>
      match arguments with
      | [] => return .spaced .set []
      | [source] => do
        let reference ← iterate source
        return .spaced .set (← drainDistinct fuel reference [])
      | many => argumentFailure s!"SpacedSet expected at most 1 argument, got {many.length}"
    | .builtin (.spaced .list) =>
      match arguments with
      | [] => return .spaced .list []
      | [source] => do return .spaced .list (← itemsOf fuel source)
      | many => argumentFailure s!"tuple expected at most 1 argument, got {many.length}"
    | .builtin (.kind name) => callKind fuel name arguments
    | .builtin (.function name) => callFunction fuel name arguments
    | other => throw (.notCallable other.typeName)

/-- Makes a value of a class that can be named without being in scope. -/
def callKind : (fuel : Nat) → String → List Value → Run Value
  | 0, _, _ => throw .tooDeep
  | fuel + 1, name, arguments =>
    match name, arguments with
    | "str", values => textOf values
    | "int", [] => return .int 0
    | "int", [value] => integerOf value
    | "int", [value, base] => integerInBase value base
    | "int", many => argumentFailure s!"int() takes at most 2 arguments ({many.length} given)"
    | "float", [] => return .real (Binary64.zero false) none
    | "float", [value] => do Run.settled (← floatOf value)
    | "bool", [] => return .bool false
    | "bool", [value] => return .bool value.isTrue
    | "list", [] => return .list []
    | "list", [source] => do return .list (← itemsOf fuel source)
    | "tuple", [] => return .tuple []
    | "tuple", [source] => do return .tuple (← itemsOf fuel source)
    | "range", bounds => rangeOf bounds
    | "map", function :: source :: more => do
      let sources ← (source :: more).mapM iterate
      return .lazy .mapped (← Run.begin (.mapped function sources))
    | "map", _ => argumentFailure "map() must have at least two arguments."
    | other, many =>
      argumentFailure s!"{other} expected at most 1 argument, got {many.length}"

/-- Calls a function that can be named without being in scope. -/
def callFunction : (fuel : Nat) → String → List Value → Run Value
  | 0, _, _ => throw .tooDeep
  | fuel + 1, name, arguments =>
    match name, arguments with
    | "len", [value] => do return .int (← lengthOf value)
    | "abs", [value] => do Run.settled (← absoluteOf value)
    | "repr", [value] => do return .text (← value.shownLiteral)
    | "print", values => do
      for value in values do
        let _ ← value.shown
      return .none
    | "sorted", [source] => do
      let items ← itemsOf fuel source
      return .list (← sortValues items)
    | "sorted", many => argumentFailure s!"sorted expected 1 argument, got {many.length}"
    | other, many =>
      argumentFailure s!"{other}() takes exactly one argument ({many.length} given)"

def itemsOf : (fuel : Nat) → Value → Run (List Value)
  | 0, _ => throw .tooDeep
  | fuel + 1, value => do
    let reference ← iterate value
    checkRoom value
    drain fuel reference []

/-- Takes all items of an iteration, behind those taken before; those come last one first. -/
def drain : (fuel : Nat) → Nat → List Value → Run (List Value)
  | 0, _, _ => throw .tooDeep
  | fuel + 1, reference, taken => do
    match ← next fuel reference with
    | none => return taken.reverse
    | some item => drain fuel reference (item :: taken)

def drainEntries : (fuel : Nat) → Nat → List (Value × Value) → Run (List (Value × Value))
  | 0, _, _ => throw .tooDeep
  | fuel + 1, reference, written => do
    match ← next fuel reference with
    | some (.tuple [key, value]) => do
      checkKey key
      drainEntries fuel reference (putEntry key value written)
    | _ => return written

def drainDistinct : (fuel : Nat) → Nat → List Value → Run (List Value)
  | 0, _, _ => throw .tooDeep
  | fuel + 1, reference, taken => do
    match ← next fuel reference with
    | none => return taken
    | some item => do
      checkKey item
      drainDistinct fuel reference (insertDistinct taken item)

def takeItems : (fuel : Nat) → Nat → (count : Nat) → Run (List Value)
  | 0, _, _ => throw .tooDeep
  | _, _, 0 => return []
  | fuel + 1, reference, count + 1 => do
    match ← next fuel reference with
    | none => return []
    | some item => do return item :: (← takeItems fuel reference count)

/-- Takes one item of each iteration, from left to right; none if one of them is at its end. -/
def takeRow : (fuel : Nat) → List Nat → Run (Option (List Value))
  | 0, _ => throw .tooDeep
  | _, [] => return some []
  | fuel + 1, source :: rest => do
    match ← next fuel source with
    | none => return none
    | some item => return (← takeRow fuel rest).map (item :: ·)

def next : (fuel : Nat) → Nat → Run (Option Value)
  | 0, _ => throw .tooDeep
  | fuel + 1, reference => do
    match ← Run.iteration reference with
    | .items [] none => return none
    | .items [] (some failure) => throw failure
    | .items (item :: rest) finish => do
      Run.proceed reference (.items rest finish)
      return some item
    | .range _ _ 0 => return none
    | .range number step (left + 1) => do
      Run.proceed reference (.range (number + step) step left)
      return some (.int number)
    | .mapped function sources => do
      match ← takeRow fuel sources with
      | none => return none
      | some arguments => do return some (← call fuel function arguments [])
    | .generator frame loops => do
      Run.proceed reference .running
      match ← Run.nested (resume fuel frame none loops) with
      | none => do
        Run.proceed reference (.items [] none)
        return none
      | some (item, inside) => do
        Run.proceed reference (.generator frame inside)
        return some item
    | .running => throw .alreadyRunning

/-- Runs a generator up to what it yields next: the clauses that are due, or the next item of the
innermost loop. Gives the loops that it is in then. -/
def resume : (fuel : Nat) → Frame → (due : Option Producer) → List Loop →
    Run (Option (Value × List Loop))
  | 0, _, _, _ => throw .tooDeep
  | fuel + 1, frame, due, loops =>
    match due with
    | some (.yields item) => do return some (← eval fuel frame item, loops)
    | some (.yieldsPair key value) => do
      let first ← eval fuel frame key
      let second ← eval fuel frame value
      return some (.tuple [first, second], loops)
    | some (.guard condition rest) => do
      let chosen ← eval fuel frame condition
      resume fuel frame (if chosen.isTrue then some rest else none) loops
    | some (.each target source rest) => do
      let origin ← eval fuel frame source
      let items ← iterate origin
      resume fuel frame none (⟨target, items, rest⟩ :: loops)
    | none =>
      match loops with
      | [] => return none
      | loop :: outer => do
        match ← next fuel loop.source with
        | none => resume fuel frame none outer
        | some item => do
          bindTarget fuel frame loop.target item
          resume fuel frame (some loop.rest) loops

def bindTarget : (fuel : Nat) → Frame → Target → Value → Run Unit
  | 0, _, _, _ => throw .tooDeep
  | fuel + 1, frame, target, item =>
    match target with
    | .name identifier =>
      match frame.scopes.head?.bind (·.lookup identifier) with
      | some cell => Run.assign cell item
      | none => return ()
    | .items parts => do
      if !item.isIterable then throw (.unpackSource item.typeName)
      let reference ← iterate item
      let values ← takeItems fuel reference (parts.length + 1)
      if values.length < parts.length then
        throw (.unpackFew parts.length values.length)
      if parts.length < values.length then throw (.unpackMany parts.length)
      bindTargets fuel frame (parts.zip values)

def bindTargets : (fuel : Nat) → Frame → List (Target × Value) → Run Unit
  | 0, _, _ => throw .tooDeep
  | _, _, [] => return ()
  | fuel + 1, frame, (target, item) :: rest => do
    bindTarget fuel frame target item
    bindTargets fuel frame rest

end

def steps : Nat := Nat.pow 10 15

def evaluate (term : Term) : Run Value := eval steps .top term

/-- Takes the next item of an iteration from outside of a term. -/
def pull (reference : Nat) : Run (Option Value) := next steps reference

end TypedMarkup.Host
