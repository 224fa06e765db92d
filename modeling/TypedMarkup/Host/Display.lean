import TypedMarkup.Event
import TypedMarkup.Host.WalkOrder
import TypedMarkup.Number.Shortest
import TypedMarkup.Text.Escape

/-!
Contract: the text of values and documents.

Owns: `Value.display`, the text of a value, `Value.literal`, its form inside of collections, and
`Document.Node.render`, the written form of a document. Whole numbers with more than 4300 digits
are not written, and neither are foreign children, so `Value.shown`, `Value.shownLiteral` and
`Document.Node.written` fail on them.

In a start tag, typed attributes come first in ascending order of their keys, then data
attributes in the order of their first writing, then printable event handlers in the order of the
events. An attribute that is unset or false is left out, and a true one is written without a
value.
-/

namespace TypedMarkup

/-- How a typed attribute appears in a start tag. -/
inductive SlotText where
  | absent
  | bare
  | text (value : String)
deriving DecidableEq, Repr

def commaSeparated (texts : List String) : String := ", ".intercalate texts

def tupleText : List String → String
  | [] => "()"
  | [only] => "(" ++ only ++ ",)"
  | items => "(" ++ commaSeparated items ++ ")"

def plainSetText : List String → String
  | [] => "frozenset()"
  | items => "frozenset(\x7b" ++ commaSeparated items ++ "\x7d)"

def rangeText (start stop step : Int) : String :=
  if step = 1 then s!"range({start}, {stop})" else s!"range({start}, {stop}, {step})"

def Builtin.display : Builtin → String
  | function name => s!"<built-in function {name}>"
  | kind name => s!"<class '{name}'>"
  | checked text => "<class 'typedhtml.types." ++ text.name ++ "'>"
  | spaced container => "<class 'typedhtml.types." ++ container.name ++ "'>"
  | makeText => "<function text>"
  | makeVerbatim => "<function unsafe_text>"
  | textMethod which => "<method '" ++ which.name ++ "' of 'str' objects>"
  | single "ellipsis" => "Ellipsis"
  | single _ => "NotImplemented"

def writtenSlots (slots : List (String × SlotText)) : List (String × SlotText) :=
  (slots.mergeSort fun left right => !(right.1 < left.1)).filter fun slot => slot.2 != .absent

def slotsMarkup (slots : List (String × SlotText)) : String :=
  String.join ((writtenSlots slots).map fun slot =>
    match slot.2 with
    | .absent => ""
    | .bare => " " ++ dashed slot.1
    | .text value => " " ++ dashed slot.1 ++ "=\"" ++ Text.escapeAttribute value ++ "\"")

def dataMarkup (data : List (String × String)) : String :=
  String.join (data.map fun entry =>
    " data-" ++ entry.1 ++ "=\"" ++ Text.escapeAttribute entry.2 ++ "\"")

def Document.Handler.text? (handler : Document.Handler Value) : Option String :=
  match handler.output with
  | .string => some (handler.value.content?.getD "")
  | .dom => none

def handlersMarkup (handlers : List (String × Document.Handler Value)) : String :=
  String.join (events.map fun event =>
    match (handlers.lookup event).bind Document.Handler.text? with
    | some text => " on" ++ event ++ "=\"" ++ Text.escapeAttribute text ++ "\""
    | none => "")

def elementMarkup (schema : Schema) (startTag : String) (children : List String) : String :=
  let name := dashed schema.name
  if (schema.required.isEmpty && schema.constraint.isNone) ||
      (children.isEmpty && schema.selfClosing) then
    "<" ++ name ++ startTag ++ "/>"
  else "<" ++ name ++ startTag ++ ">" ++ String.join children ++ "</" ++ name ++ ">"

mutual

def Value.display : Value → String
  | .none => "None"
  | .bool value => if value then "True" else "False"
  | .int value => toString value
  | .real value _ => value.text
  | .text value => value
  | .checked _ value => value
  | .member word => word.text
  | .list items => "[" ++ commaSeparated (literals items) ++ "]"
  | .tuple items => tupleText (literals items)
  | .dict entries => "\x7b" ++ commaSeparated (literalEntries entries) ++ "\x7d"
  | .spaced .set items => " ".intercalate (sortNames (displays items))
  | .spaced .list items => " ".intercalate (displays items)
  | .plainSet items => plainSetText (walkOrder items (literals items))
  | .node node => node.render
  | .record _ _ => "Obj"
  | .function name _ _ => "Fn(" ++ name ++ ")"
  | .raiser name _ _ => "Fn(" ++ name ++ ")"
  | .stream _ _ _ _ => "Iter"
  | .vocabulary words => "<enum '" ++ words.name ++ "'>"
  | .builtin which => which.display
  | .method _ which => "<built-in method " ++ which.name ++ " of str object>"
  | .range start stop step => rangeText start stop step
  | .lazy .mapped _ => "<map object>"
  | .lazy .generator _ => "<generator object>"
  | .closure signature _ _ _ _ => "<function " ++ signature.name ++ ">"

def Value.literal : Value → String
  | .text value => Text.quoted value
  | .checked _ value => Text.quoted value
  | .member word =>
    "<" ++ word.vocabulary ++ "." ++ word.name ++ ": " ++ Text.quoted word.text ++ ">"
  | .spaced .set [] => "SpacedSet()"
  | .spaced .set items =>
    "SpacedSet(\x7b" ++ commaSeparated (walkOrder items (literals items)) ++ "\x7d)"
  | .spaced .list items => tupleText (literals items)
  | .plainSet items => plainSetText (walkOrder items (literals items))
  | .node (.element element) => "<TypedElement " ++ element.name ++ ">"
  | .node (.text value) => "TextNode(text=" ++ Text.quoted value ++ ")"
  | .node (.verbatim value) => "UnsafeTextNode(text=" ++ Text.quoted value ++ ")"
  | .node (.foreign value) => value.literal
  | .none => "None"
  | .bool value => if value then "True" else "False"
  | .int value => toString value
  | .real value _ => value.text
  | .list items => "[" ++ commaSeparated (literals items) ++ "]"
  | .tuple items => tupleText (literals items)
  | .dict entries => "\x7b" ++ commaSeparated (literalEntries entries) ++ "\x7d"
  | .record _ _ => "Obj"
  | .function name _ _ => "Fn(" ++ name ++ ")"
  | .raiser name _ _ => "Fn(" ++ name ++ ")"
  | .stream _ _ _ _ => "Iter"
  | .vocabulary words => "<enum '" ++ words.name ++ "'>"
  | .builtin which => which.display
  | .method _ which => "<built-in method " ++ which.name ++ " of str object>"
  | .range start stop step => rangeText start stop step
  | .lazy .mapped _ => "<map object>"
  | .lazy .generator _ => "<generator object>"
  | .closure signature _ _ _ _ => "<function " ++ signature.name ++ ">"

def displays : List Value → List String
  | [] => []
  | value :: rest => value.display :: displays rest

def literals : List Value → List String
  | [] => []
  | value :: rest => value.literal :: literals rest

def literalEntries : List (Value × Value) → List String
  | [] => []
  | entry :: rest => literalEntry entry :: literalEntries rest

def literalEntry : Value × Value → String
  | (key, value) => key.literal ++ ": " ++ value.literal

def Document.Node.render : Document.Node → String
  | .element element => renderElement element
  | .text value => Text.escapeContent value
  | .verbatim value => value
  | .foreign value => value.display

def renderElement : Document.ElementOf Value Document.Node → String
  | ⟨schema, _, slots, data, handlers, required, optional, _⟩ =>
    elementMarkup schema (slotsMarkup (slotTexts slots) ++ dataMarkup data ++
      handlersMarkup handlers) (renderAll required ++ renderAll optional)

def renderAll : List Document.Node → List String
  | [] => []
  | node :: rest => node.render :: renderAll rest

def slotTexts : List (String × Value) → List (String × SlotText)
  | [] => []
  | slot :: rest => slotText slot :: slotTexts rest

/-- How a typed attribute appears in a start tag. -/
def slotText : String × Value → String × SlotText
  | (key, .none) => (key, .absent)
  | (key, .bool value) => (key, if value then .bare else .absent)
  | (key, value) => (key, .text value.display)

end

/-- The least number with more than 4300 digits. -/
def longNumber : Nat := Nat.pow 10 4300

mutual

/-- Whether the form of a value inside of a collection would have a number that is too long. -/
def Value.isLongLiteral : Value → Bool
  | .int value => longNumber ≤ value.natAbs
  | .list items => longLiterals items
  | .tuple items => longLiterals items
  | .spaced _ items => longLiterals items
  | .plainSet items => longLiterals items
  | .dict entries => longEntries entries
  | .range start stop step =>
    longNumber ≤ start.natAbs || longNumber ≤ stop.natAbs || longNumber ≤ step.natAbs
  | _ => false

def longLiterals : List Value → Bool
  | [] => false
  | value :: rest => value.isLongLiteral || longLiterals rest

/-- Whether the form of one of several entries would have a number that is too long. -/
def longEntries : List (Value × Value) → Bool
  | [] => false
  | entry :: rest => longEntry entry || longEntries rest

def longEntry : Value × Value → Bool
  | (key, value) => key.isLongLiteral || value.isLongLiteral

end

/-- What keeps a text from being written: a number that is too long, or a child that is no node and
does not know the action that its parent takes. -/
inductive Obstacle where
  | longNumber
  | foreignChild (typeName action : String)
deriving DecidableEq, Repr

def Obstacle.failure : Obstacle → Failure
  | longNumber => .integerLength
  | foreignChild typeName action => .noAttribute typeName action

/-- The first obstacle to the writing of slots, which are written in ascending order of their
keys. -/
def firstObstacle? (slots : List (String × Option Obstacle)) : Option Obstacle :=
  (slots.mergeSort fun left right => !(right.1 < left.1)).findSome? Prod.snd

mutual

/-- What keeps the text of a value from being written, if anything does. -/
def Value.obstacle? : Value → Option Obstacle
  | .spaced _ items => obstacleAmong? items
  | .node node => node.obstacle? "render"
  | other => if other.isLongLiteral then some .longNumber else none

def obstacleAmong? : List Value → Option Obstacle
  | [] => none
  | value :: rest => value.obstacle?.or (obstacleAmong? rest)

/-- What keeps a node from an action, if anything does. A foreign child cannot take part in one. -/
def Document.Node.obstacle? (action : String) : Document.Node → Option Obstacle
  | .element element => elementObstacle? action element
  | .text _ => none
  | .verbatim _ => none
  | .foreign value => some (.foreignChild value.typeName action)

/-- What keeps an element from an action: its attributes first, then its children. -/
def elementObstacle? (action : String) : Document.ElementOf Value Document.Node → Option Obstacle
  | ⟨_, _, slots, _, _, required, optional, _⟩ =>
    (firstObstacle? (slotObstacles slots)).or
      ((nodesObstacle? action required).or (nodesObstacle? action optional))

def slotObstacles : List (String × Value) → List (String × Option Obstacle)
  | [] => []
  | slot :: rest => slotObstacle slot :: slotObstacles rest

def slotObstacle : String × Value → String × Option Obstacle
  | (key, value) => (key, value.obstacle?)

def nodesObstacle? (action : String) : List Document.Node → Option Obstacle
  | [] => none
  | node :: rest => (node.obstacle? action).or (nodesObstacle? action rest)

end

def unlessObstructed {α : Type} (obstacle : Option Obstacle) (result : α) : Except Failure α :=
  match obstacle with
  | some found => .error found.failure
  | none => .ok result

def Value.shown (value : Value) : Except Failure String :=
  unlessObstructed value.obstacle? value.display

/-- The form of a value inside of collections, unless a number in it is too long. -/
def Value.shownLiteral (value : Value) : Except Failure String :=
  if value.isLongLiteral then .error .integerLength else .ok value.literal

def Document.Node.written (node : Document.Node) : Except Failure String :=
  unlessObstructed (node.obstacle? "render") node.render

end TypedMarkup
