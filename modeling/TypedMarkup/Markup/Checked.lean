import TypedMarkup.Event
import TypedMarkup.Markup.Grammar
import TypedMarkup.Schema.Registry

/-!
Contract: checking a markup tree against schemas.

Owns: `Checked`, a tree that satisfies its schemas, with the children of each element divided into
required and optional ones and its attributes into typed, data and event attributes, and
`Markup.Source.check`, which makes it or reports the first violation.

Code blocks are accepted wherever children are; what they produce is checked when it is built.
-/

namespace TypedMarkup

structure TypedAttribute where
  written : Markup.Attribute
  key : String
  type : AttributeType
deriving DecidableEq, Repr

/-- The attributes of an element by what they are for. Data attributes are named without `data-`,
event attributes by their event. -/
structure AttributeBuckets where
  typed : List TypedAttribute
  data : List (String × Markup.Attribute)
  events : List (String × Markup.Attribute)
deriving DecidableEq, Repr

/-- The start of an element that satisfies its schema. -/
structure CheckedTag where
  tag : Markup.Tag
  schema : Schema
  buckets : AttributeBuckets
  span : Span
deriving DecidableEq, Repr

inductive Checked where
  | element (head : CheckedTag) (required optional : List Checked)
  | text (value : String) (span : Span)
  | block (expression : Expression)

namespace Markup

def violation (source : String) (cause : SchemaCause) (span : Span) : CompileError :=
  { cause := .schema cause, span := span, source := source }

def dataNameOf? (name : String) : Option String :=
  match name.toList with
  | 'd' :: 'a' :: 't' :: 'a' :: '-' :: first :: rest => some (String.ofList (first :: rest))
  | _ => none

def sortAttributes (source : String) (tag : Tag) (schema : Schema) :
    List Attribute → Except CompileError AttributeBuckets
  | [] => .ok ⟨[], [], []⟩
  | found :: rest =>
    match dataNameOf? found.name, eventOf? found.name with
    | some name, _ => do
      let buckets ← sortAttributes source tag schema rest
      return { buckets with data := (name, found) :: buckets.data }
    | none, some event => do
      let buckets ← sortAttributes source tag schema rest
      return { buckets with events := (event, found) :: buckets.events }
    | none, none =>
      match schema.attributeType? found.name with
      | none =>
        .error (violation source (.unknownAttribute found.name tag.name) found.nameSpan)
      | some type => do
        let buckets ← sortAttributes source tag schema rest
        return { buckets with
          typed := ⟨found, keyOf found.name, type⟩ :: buckets.typed }

def schemaOf (registry : Registry) (source : String) (tag : Tag) :
    Except CompileError Schema :=
  match registry.schema? (keyOf tag.name) with
  | some schema => .ok schema
  | none => .error (violation source (.unknownElement tag.name) tag.nameSpan)

def checkRequiredName (source : String) (tag : Tag) (expected : String) (index : Nat)
    (child : Node) : Except CompileError Unit :=
  let accepted := match child with
    | .element childTag _ _ => keyOf childTag.name == expected
    | _ => false
  if accepted then .ok ()
  else
    .error (violation source (.wrongRequired tag.name expected index child.describe) child.span)

/-- Checks that an optional child is accepted by the constraint of its parent. -/
def checkAccepted (registry : Registry) (source : String) (tag : Tag) (schema : Schema)
    (child : Node) : Except CompileError Unit :=
  match schema.constraint with
  | none => .error (violation source (.noChildren tag.name child.describe) child.span)
  | some constraint => do
    let tags ← match child with
      | .block _ => pure [constraint]
      | .text _ _ => pure textTags
      | .element childTag _ _ => (schemaOf registry source childTag).map Schema.tags
    if tags.contains constraint then return ()
    else
      throw (violation source (.rejectedChild tag.name constraint child.describe) child.span)

mutual

def checkNode (registry : Registry) (source : String) : Node → Except CompileError Checked
  | .text value span => .ok (.text value span)
  | .block expression => .ok (.block expression)
  | .element tag children span => do
    let schema ← schemaOf registry source tag
    if children.length < schema.required.length then
      throw (violation source
        (.tooFewChildren tag.name schema.required.length children.length) tag.nameSpan)
    let (required, optional) ←
      checkChildren registry source tag schema schema.required 1 children
    let buckets ← sortAttributes source tag schema tag.attributes
    return .element ⟨tag, schema, buckets, span⟩ required optional

/-- Checks the children of an element: first the required ones, as many as are expected, then the
optional ones. `index` counts the children from one. -/
def checkChildren (registry : Registry) (source : String) (tag : Tag) (schema : Schema) :
    (expected : List String) → (index : Nat) → List Node →
      Except CompileError (List Checked × List Checked)
  | _, _, [] => .ok ([], [])
  | name :: names, index, child :: rest => do
    checkRequiredName source tag name index child
    let first ← checkNode registry source child
    let (required, optional) ←
      checkChildren registry source tag schema names (index + 1) rest
    return (first :: required, optional)
  | [], index, child :: rest => do
    checkAccepted registry source tag schema child
    let first ← checkNode registry source child
    let (required, optional) ←
      checkChildren registry source tag schema [] (index + 1) rest
    return (required, first :: optional)

end

def Source.check (unit : Source) (registry : Registry) (source : String) :
    Except CompileError Checked :=
  checkNode registry source unit.root

end Markup

end TypedMarkup
