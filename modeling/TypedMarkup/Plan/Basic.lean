import TypedMarkup.Host.Value
import TypedMarkup.Markup.Basic

/-!
Contract: construction plans.

Owns: `Plan`, everything that building a document needs from a unit: literals are already read by
the types of their attributes, and expressions are kept until names have values.
-/

namespace TypedMarkup

/-- Where the value of a typed attribute comes from: a literal that has been read, or an
expression. -/
inductive AttributeSource where
  | literal (written : String) (value : Value)
  | expression (code : Expression)

inductive TextSource where
  | literal (written : String)
  | expression (code : Expression)
deriving DecidableEq, Repr

structure AttributePlan where
  name : String
  source : AttributeSource
  span : Span

/-- How a data attribute is set, by its name without `data-`. -/
structure DataPlan where
  name : String
  source : TextSource
  span : Span
deriving DecidableEq, Repr

structure EventPlan where
  event : String
  source : TextSource
  span : Span
deriving DecidableEq, Repr

/-- What an element is made of, its children apart. -/
structure TagPlan where
  schema : Schema
  attributes : List AttributePlan
  data : List DataPlan
  events : List EventPlan
  span : Span

/-- A code block: everything that its expression yields becomes a child, if the constraint of the
parent accepts it. At the root there is no parent. -/
structure BlockPlan where
  expression : Expression
  parent : String
  constraint : Option String
deriving DecidableEq, Repr

inductive NodePlan where
  | element (head : TagPlan) (required optional : List NodePlan)
  | text (value : String) (span : Span)
  | block (block : BlockPlan)

structure Plan where
  root : NodePlan
  output : Option OutputType
  source : String

def NodePlan.label : NodePlan → String
  | element head _ _ => "<" ++ head.schema.name ++ ">"
  | text _ _ => "text"
  | block _ => "code block"

end TypedMarkup
