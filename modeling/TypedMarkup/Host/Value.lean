import TypedMarkup.Host.Failure
import TypedMarkup.Host.Term
import TypedMarkup.Schema.Registry

/-!
Contract: host values and the documents built from them.

Owns: `Value`, everything that an expression can evaluate to, `Document.Node`, a node of a built
document, and `Element`. Values and documents contain each other: a node is a value, and the
attributes and event handlers of an element are values.

An attribute slot that is not set holds `Value.none`.

Some values are told apart although their contents are equal. They have an `Identity`, and a value
that nothing else can be identical to may have none. A lazy value is a reference to an iteration
that is going on, so whoever takes items from it takes them from everyone.
-/

namespace TypedMarkup

/-- Which object a value is: the given ones come from outside of an evaluation, the others are
made by it. -/
inductive Identity where
  | given (number : Nat)
  | made (number : Nat)
deriving DecidableEq, Repr

namespace Document

structure Handler (ν : Type) where
  event : String
  value : ν
  output : OutputType

structure ElementOf (ν κ : Type) where
  schema : Schema
  output : Option OutputType
  slots : List (String × ν)
  data : List (String × String)
  handlers : List (String × Handler ν)
  required : List κ
  optional : List κ
  identity : Option Identity

end Document

inductive TextMethod where
  | upper
  | join
deriving DecidableEq, Repr

def TextMethod.name : TextMethod → String
  | upper => "upper"
  | join => "join"

/-- The functions and classes that expressions can use by name, and the only values of their
types. -/
inductive Builtin where
  | function (name : String)
  | kind (name : String)
  | checked (text : CheckedText)
  | spaced (container : Container)
  | makeText
  | makeVerbatim
  | textMethod (which : TextMethod)
  | single (typeName : String)
deriving DecidableEq, Repr

/-- How the items of a lazy value come about. -/
inductive LazyKind where
  | generator
  | mapped
deriving DecidableEq, Repr

mutual

/-- A host value. A function knows the cells of the variables around it. -/
inductive Value where
  | none
  | bool (value : Bool)
  | int (value : Int)
  | real (value : Binary64) (identity : Option Identity)
  | text (value : String)
  | checked (kind : CheckedText) (value : String)
  | member (word : Member)
  | list (items : List Value)
  | tuple (items : List Value)
  | dict (entries : List (Value × Value))
  | spaced (container : Container) (items : List Value)
  | plainSet (items : List Value)
  | node (node : Document.Node)
  | record (fields : List (String × Value)) (identity : Identity)
  | function (name : String) (result : Value) (identity : Identity)
  | raiser (name text : String) (identity : Identity)
  | stream (items : List Value) (start : Option String) (finish : Option Failure)
      (identity : Identity)
  | vocabulary (words : Vocabulary)
  | builtin (which : Builtin)
  | method (text : String) (which : TextMethod)
  | range (start stop step : Int)
  | lazy (kind : LazyKind) (reference : Nat)
  | closure (signature : Host.Signature) (defaults : List Value) (body : Host.Term)
      (scopes : Host.Scopes) (identity : Nat)

/-- A node of a built document. Verbatim text is written without escapes. A foreign child is a
value that was bound as a required child although it is no node. -/
inductive Document.Node where
  | element (element : Document.ElementOf Value Document.Node)
  | text (value : String)
  | verbatim (value : String)
  | foreign (value : Value)

end

instance : Inhabited Value := ⟨.none⟩

abbrev Element := Document.ElementOf Value Document.Node

namespace Value

def content? : Value → Option String
  | text value => some value
  | checked _ value => some value
  | member word => some word.text
  | _ => Option.none

def typeName : Value → String
  | none => "NoneType"
  | bool _ => "bool"
  | int _ => "int"
  | real _ _ => "float"
  | text _ => "str"
  | checked kind _ => kind.name
  | member word => word.vocabulary
  | list _ => "list"
  | tuple _ => "tuple"
  | dict _ => "dict"
  | spaced container _ => container.name
  | plainSet _ => "frozenset"
  | node (.element _) => "TypedElement"
  | node (.text _) => "TextNode"
  | node (.verbatim _) => "UnsafeTextNode"
  | node (.foreign _) => "object"
  | record _ _ => "Obj"
  | function _ _ _ => "Fn"
  | raiser _ _ _ => "Fn"
  | stream _ _ _ _ => "Iter"
  | vocabulary _ => "EnumType"
  | builtin (.function _) => "builtin_function_or_method"
  | builtin (.kind _) => "type"
  | builtin (.checked _) => "type"
  | builtin (.spaced _) => "type"
  | builtin .makeText => "function"
  | builtin .makeVerbatim => "function"
  | builtin (.textMethod _) => "method_descriptor"
  | builtin (.single name) => name
  | method _ _ => "builtin_function_or_method"
  | range _ _ _ => "range"
  | lazy .mapped _ => "map"
  | lazy .generator _ => "generator"
  | closure _ _ _ _ _ => "function"

def isCallable : Value → Bool
  | function _ _ _ => true
  | raiser _ _ _ => true
  | vocabulary _ => true
  | builtin (.single _) => false
  | builtin _ => true
  | method _ _ => true
  | closure _ _ _ _ _ => true
  | _ => false

def callName : Value → String
  | builtin (.function name) => name
  | builtin (.kind name) => name
  | builtin (.checked kind) => kind.name
  | builtin (.spaced container) => container.name
  | vocabulary words => words.name
  | builtin (.textMethod which) => "str." ++ which.name
  | method _ which => "str." ++ which.name
  | other => other.typeName

def hasKeys : Value → Bool
  | dict _ => true
  | vocabulary _ => true
  | _ => false

def isIterable : Value → Bool
  | text _ => true
  | checked _ _ => true
  | member _ => true
  | list _ => true
  | tuple _ => true
  | dict _ => true
  | spaced _ _ => true
  | plainSet _ => true
  | stream _ _ _ _ => true
  | vocabulary _ => true
  | range _ _ _ => true
  | lazy _ _ => true
  | _ => false

def rangeLength (start stop step : Int) : Nat :=
  if 0 < step then ((stop - start + step - 1).fdiv step).toNat
  else if step < 0 then ((start - stop - step - 1).fdiv (-step)).toNat
  else 0

def isTrue : Value → Bool
  | none => false
  | bool value => value
  | int value => value != 0
  | real value _ => !value.isZero
  | text value => !value.isEmpty
  | checked _ value => !value.isEmpty
  | member word => !word.text.isEmpty
  | list items => !items.isEmpty
  | tuple items => !items.isEmpty
  | dict entries => !entries.isEmpty
  | spaced _ items => !items.isEmpty
  | plainSet items => !items.isEmpty
  | range start stop step => rangeLength start stop step != 0
  | _ => true

end Value

/-- A name as it is written in documents: underscores become dashes. -/
def dashed (key : String) : String :=
  String.ofList (key.toList.map fun character => if character == '_' then '-' else character)

def Document.ElementOf.name {ν κ : Type} (element : Document.ElementOf ν κ) : String :=
  dashed element.schema.name

namespace Document.Node

/-- The categories and names under which a constraint accepts a node. -/
def tags : Node → List String
  | .element found => found.schema.tags
  | .text _ => textTags
  | .verbatim _ => textTags
  | .foreign _ => []

def describe : Node → String
  | .element found => "<" ++ found.name ++ ">"
  | _ => "text"

def requiredName : Node → String
  | .element found => found.schema.name
  | _ => "text"

end Document.Node

end TypedMarkup
