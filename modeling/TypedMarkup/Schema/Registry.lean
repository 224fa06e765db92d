import TypedMarkup.Schema.AttributeType

/-!
Contract: resolved element schemas.

Owns: `Schema`, the rules for one element, and `Registry`, the schemas of a list of declarations.
Declarations may refer to elements and categories that are declared later.
-/

namespace TypedMarkup

/-- The attributes of every element, unless its declaration gives them another type. -/
def globalAttributes : Table AttributeType := [
  ("id", .checked .id),
  ("class", .spaced .set (.checked .className)),
  ("accesskey", .string "String"),
  ("autocapitalize", .string "String"),
  ("contenteditable", .bool),
  ("contextmenu", .checked .id),
  ("dir", .vocabulary .textDirection),
  ("draggable", .bool),
  ("hidden", .bool),
  ("is", .string "String"),
  ("lang", .checked .languageTag),
  ("style", .string "String"),
  ("tabindex", .integer false),
  ("title", .string "String")]

/-- The elements that are written as one tag when they have no children. -/
def selfClosingElements : List String := [
  "area", "base", "br", "col", "command", "embed", "hr", "img", "input", "keygen", "link", "meta",
  "param", "source", "track", "wbr"]

def textCategory : String := "TextNode"

def textTags : List String := ["FlowContent", "PhrasingContent", textCategory]

structure Schema where
  name : String
  attributes : Table AttributeType
  required : List String
  constraint : Option String
  categories : List String
deriving DecidableEq, Repr

namespace Schema

/-- Everything that a constraint may name to accept the element. -/
def tags (schema : Schema) : List String := schema.categories ++ [schema.name]

/-- Whether the element is written as one tag when it has no children. -/
def selfClosing (schema : Schema) : Bool := selfClosingElements.contains schema.name

def attributeType? (schema : Schema) (name : String) : Option AttributeType :=
  schema.attributes.get? (keyOf name)

end Schema

namespace Declaration

def error (declaration : Declaration) (cause : SchemaCause) (span : Span) : CompileError :=
  { cause := .schema cause, span := span, source := declaration.source }

/-- The attributes of an element: the global ones, then its own. -/
def resolveAttributes (declaration : Declaration) : Except CompileError (Table AttributeType) :=
  declaration.attributes.foldlM
    (fun attributes found =>
      match found.type.resolve with
      | .ok resolved => .ok (attributes.put found.name resolved)
      | .error fault =>
        .error (declaration.error (.attributeType found.name declaration.name fault) found.span))
    globalAttributes

def checkRequired (declaration : Declaration) (elements : List String) :
    Except CompileError Unit :=
  declaration.required.forM fun child =>
    if elements.contains child.1 then .ok ()
    else .error (declaration.error (.undeclaredRequired child.1 declaration.name) child.2)

def checkConstraint (declaration : Declaration) (elements categories : List String) :
    Except CompileError Unit :=
  match declaration.constraint with
  | none => .ok ()
  | some (name, span) =>
    if elements.contains name || categories.contains name then .ok ()
    else .error (declaration.error (.undeclaredConstraint name) span)

def resolve (declaration : Declaration) (elements categories : List String) :
    Except CompileError Schema := do
  let attributes ← declaration.resolveAttributes
  declaration.checkRequired elements
  declaration.checkConstraint elements categories
  return { name := declaration.name
           attributes := attributes
           required := declaration.required.map Prod.fst
           constraint := declaration.constraint.map Prod.fst
           categories := declaration.categories }

/-- Checks that no element is declared twice. `seen` are the names declared before. -/
def checkDistinct (seen : List String) : List Declaration → Except CompileError Unit
  | [] => .ok ()
  | declaration :: rest =>
    if seen.contains declaration.name then
      .error (declaration.error (.repeatedElement declaration.name) declaration.span)
    else checkDistinct (declaration.name :: seen) rest

def resolveAll (declarations : List Declaration) : Except CompileError (List Schema) := do
  checkDistinct [] declarations
  let elements := declarations.map Declaration.name
  let categories := declarations.flatMap Declaration.categories ++ [textCategory]
  declarations.mapM fun declaration => declaration.resolve elements categories

end Declaration

structure Registry where
  declarations : List Declaration
  schemas : List Schema

namespace Registry

def empty : Registry := ⟨[], []⟩

def ofDeclarations (declarations : List Declaration) : Except CompileError Registry :=
  (Declaration.resolveAll declarations).map fun schemas => ⟨declarations, schemas⟩

def ofSource (source : String) : Except CompileError Registry := do
  ofDeclarations (← Declaration.parseAll source)

def merge (registry : Registry) (source : String) : Except CompileError Registry := do
  ofDeclarations (registry.declarations ++ (← Declaration.parseAll source))

def schema? (registry : Registry) (name : String) : Option Schema :=
  registry.schemas.find? fun schema => schema.name == name

def names (registry : Registry) : List String :=
  registry.schemas.map Schema.name

def categories (registry : Registry) : List String :=
  distinct (registry.schemas.flatMap Schema.categories)

end Registry

def sortNames (names : List String) : List String :=
  names.mergeSort fun left right => !(right < left)

end TypedMarkup
