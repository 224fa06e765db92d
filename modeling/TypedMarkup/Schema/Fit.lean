import TypedMarkup.Host.Evaluate

/-!
Contract: values of attribute types.

Owns: `AttributeType.parse`, which reads a value from text, and `AttributeType.coerce`, which fits
any host value to a type. A text fits exactly when it can be read, except that a word of a
vocabulary never fits another vocabulary.
-/

namespace TypedMarkup

def checkMinimum (unsigned : Bool) (number : Int) : Except Rejection Value :=
  if unsigned && number < 0 then .error (.belowMinimum 0) else .ok (.int number)

def Container.collect (container : Container) (values : List Value) : Value :=
  match container with
  | .set => .spaced .set (distinctValues values)
  | .list => .spaced .list values

/-- Fits the items of an iteration one by one as they are taken, behind those fitted before; those
come last one first. The first failure counts, of an item or of the iteration. -/
def fitItems (fit : Value → Host.Run Value) (reference : Nat) :
    (fuel : Nat) → List Value → Host.Run (List Value)
  | 0, _ => throw .tooDeep
  | fuel + 1, fitted => do
    match ← Host.pull reference with
    | none => return fitted.reverse
    | some item => fitItems fit reference fuel ((← fit item) :: fitted)

namespace AttributeType

def parse : AttributeType → String → Except Rejection Value
  | string _, literal => .ok (.text literal)
  | bool, literal =>
    if literal = "true" ∨ literal = "" then .ok (.bool true)
    else if literal = "false" then .ok (.bool false)
    else .error .notBool
  | integer unsigned, literal =>
    match Number.readInteger? (Text.trim literal) with
    | some number => checkMinimum unsigned number
    | none => .error .notInteger
  | real, literal =>
    match Number.readReal? literal with
    | some number => .ok (.real number none)
    | none => .error .notNumber
  | vocabulary words, literal =>
    match words.ofText? literal with
    | some word => .ok (.member word)
    | none => .error (.notWord (words.entries.map Prod.snd))
  | checked kind, literal => (kind.check literal).map fun _ => .checked kind literal
  | spaced container item, literal =>
    ((Text.fields literal).mapM item.parse).map container.collect

def wrongType (type : AttributeType) (value : Value) : Except Failure Value :=
  .error (.rejected (.wrongType value.typeName type.name))

def parseContent (type : AttributeType) (content : String) : Except Failure Value :=
  (type.parse content).mapError .rejected

/-- Fits a value to a type. The items of a value that has them are fitted one by one. -/
def coerce : AttributeType → Value → Host.Run Value
  | string alternative, value =>
    match value with
    | .none => wrongType (string alternative) value
    | .bool _ => wrongType (string alternative) value
    | other => if other.content?.isSome then return other else return .text (← other.shown)
  | bool, value =>
    match value.content?, value with
    | some content, _ => parseContent bool content
    | none, .bool truth => return .bool truth
    | none, other => wrongType bool other
  | integer unsigned, value =>
    match value.content?, value with
    | some content, _ => parseContent (integer unsigned) content
    | none, .int number => (checkMinimum unsigned number).mapError Failure.rejected
    | none, other => wrongType (integer unsigned) other
  | real, value =>
    match value.content?, value with
    | some content, _ => parseContent real content
    | none, .int number => do return .real (← Host.realOfInt number) none
    | none, .real number identity => return .real number identity
    | none, other => wrongType real other
  | vocabulary words, value =>
    match value with
    | .member word =>
      if word.vocabulary = words.name then return .member word
      else throw (.rejected (.otherVocabulary words.name word.vocabulary word.name))
    | other =>
      match other.content? with
      | some content => parseContent (vocabulary words) content
      | none => wrongType (vocabulary words) other
  | checked kind, value =>
    match value with
    | .checked found content =>
      if found = kind then return .checked found content
      else parseContent (checked kind) content
    | other =>
      match other.content? with
      | some content => parseContent (checked kind) content
      | none => wrongType (checked kind) other
  | spaced container item, value =>
    match value.content?, Host.plainItems? value with
    | some content, _ => parseContent (spaced container item) content
    | none, some items => do return container.collect (← items.mapM item.coerce)
    | none, none =>
      if value.isIterable then do
        let reference ← Host.iterate value
        return container.collect (← fitItems item.coerce reference Host.steps [])
      else wrongType (spaced container item) value

end AttributeType

end TypedMarkup
