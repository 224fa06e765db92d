import TypedMarkup.Schema.Fit

/-!
Contract: making and changing elements.

Owns: `Element.ofSchema` and the changes of an element: its attributes, data, event handlers,
required and optional children. A change that is refused leaves the element as it was.

Optional children are there only if the schema has a constraint, and each is checked against it.
-/

namespace TypedMarkup

namespace Document

def checkHandler (output : OutputType) (value : Value) : Except Refusal Unit :=
  match output with
  | .string =>
    if value.content?.isSome then .ok () else .error (.handler .string value.typeName)
  | .dom => if value.isCallable then .ok () else .error (.handler .dom value.typeName)

def bindHandler (output : OutputType) (event : String) (value : Value) :
    Except Refusal (Handler Value) :=
  (checkHandler output value).map fun _ => ⟨event, value, output⟩

def requiredNameOf : Value → String
  | .node node => node.requiredName
  | _ => "text"

def bound : Value → Node
  | .node node => node
  | other => .foreign other

end Document

namespace Document.ElementOf

def ofSchema (schema : Schema) (output : Option OutputType) : Element :=
  { schema := schema
    output := output
    slots := schema.attributes.map fun entry => (entry.1, Value.none)
    data := []
    handlers := []
    required := []
    optional := []
    identity := none }

/-- The value of an attribute; one that is not set, or does not exist, has none. -/
def attributeValue (element : Element) (name : String) : Value :=
  (Table.get? element.slots (keyOf name)).getD .none

def setAttribute (element : Element) (name : String) (value : Value) : Except Refusal Element :=
  if Table.has element.slots (keyOf name) then
    .ok { element with slots := Table.put (keyOf name) value element.slots }
  else .error (.unknownAttribute element.name name)

def attributeType (element : Element) (name : String) : Except Refusal AttributeType :=
  match element.schema.attributeType? name with
  | some found => .ok found
  | none => .error (.unknownAttribute element.name name)

def parseAttribute (element : Element) (name literal : String) : Except Failure Element := do
  let type ← (element.attributeType name).mapError .refused
  let value ← (type.parse literal).mapError .rejected
  (element.setAttribute name value).mapError .refused

def coerceAttribute (element : Element) (name : String) (value : Value) :
    Host.Run Element := do
  let type ← (element.attributeType name).mapError Failure.refused
  let fitted ← type.coerce value
  (element.setAttribute name fitted).mapError Failure.refused

def setData (element : Element) (name value : String) : Element :=
  { element with data := Table.put name value element.data }

def setHandler (element : Element) (handler : Document.Handler Value) : Element :=
  { element with handlers := Table.put handler.event handler element.handlers }

/-- Sets the required children, which must have the names that the schema lists. -/
def setRequired (element : Element) (children : List Value) : Except Refusal Element :=
  let found := children.map Document.requiredNameOf
  if found = element.schema.required then
    .ok { element with required := children.map Document.bound }
  else .error (.requiredChildren element.name element.schema.required found)

def append (element : Element) (child : Value) : Except Refusal Element :=
  match element.schema.constraint with
  | none => .error (.childless element.name)
  | some constraint =>
    match child with
    | .node node =>
      if node.tags.contains constraint then
        .ok { element with optional := element.optional ++ [node] }
      else .error (.rejectedChild element.name constraint node.describe)
    | other => .error (.notNode other.typeName element.name)

/-- Adds optional children one by one, up to the first that is refused: the element as it is left,
and the refusal. -/
def extend (element : Element) : List Value → Element × Option Refusal
  | [] => (element, none)
  | child :: rest =>
    match element.append child with
    | .ok extended => extended.extend rest
    | .error refusal => (element, some refusal)

def optional? (element : Element) : Option (List Document.Node) :=
  element.schema.constraint.map fun _ => element.optional

def children (element : Element) : List Document.Node :=
  element.required ++ element.optional

def attributeNames (element : Element) : List String :=
  element.slots.map fun slot => dashed slot.1

def requiredNames (element : Element) : List String :=
  element.schema.required.map dashed

/-- The attributes that are set, by their written names: typed ones in ascending order of their
keys, then data attributes. A true attribute has an empty text. -/
def attributePairs (element : Element) : List (String × String) :=
  (writtenSlots (slotTexts element.slots)).map (fun slot =>
    match slot.2 with
    | .text value => (dashed slot.1, value)
    | _ => (dashed slot.1, "")) ++
    element.data.map fun entry => ("data-" ++ entry.1, entry.2)

def orderedHandlers (element : Element) : List (Document.Handler Value) :=
  events.filterMap fun event => element.handlers.lookup event

end Document.ElementOf

/-- Attaches a handler to a live target, which is told of the event and the value. -/
def Document.Handler.attach {ν α : Type} (handler : Document.Handler ν)
    (addListener : String → ν → α) : Except Refusal α :=
  match handler.output with
  | .string => .error .printedHandler
  | .dom => .ok (addListener handler.event handler.value)

end TypedMarkup
