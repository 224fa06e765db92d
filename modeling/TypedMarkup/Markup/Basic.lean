import TypedMarkup.Source.Position
import TypedMarkup.Token.Character

/-!
Contract: markup units as written.

Owns: `Expression`, a host expression that is captured and not yet evaluated, `Markup.Node`, the
tree of elements, texts and code blocks, and `Markup.Source`, a whole unit.

Does not own: what the names of elements and attributes mean, which schemas decide.
-/

namespace TypedMarkup

/-- The look-up form of an element or attribute name: dashes become underscores. -/
def keyOf (name : String) : String :=
  String.ofList (name.toList.map fun character => if character == '-' then '_' else character)

/-- A captured host expression: a dotted path, a call of a path, or a bracketed group. -/
inductive Expression where
  | path (head : String) (members : List String) (span : Span)
  | call (segments : List String) (code : String) (span : Span)
  | group (delimiter : Delimiter) (code : String) (span : Span)
deriving DecidableEq, Repr

namespace Expression

def span : Expression → Span
  | path _ _ span => span
  | call _ _ span => span
  | group _ _ span => span

/-- The names of a path or of the path that is called. -/
def segments : Expression → List String
  | path head members _ => head :: members
  | call segments _ _ => segments
  | group _ _ _ => []

def code : Expression → String
  | path head members _ => ".".intercalate (head :: members)
  | call _ code _ => code
  | group _ code _ => code

end Expression

inductive AttributeValue where
  | literal (value raw : String) (quoted : Bool) (span : Span)
  | expression (expression : Expression)
deriving DecidableEq, Repr

def AttributeValue.span : AttributeValue → Span
  | .literal _ _ _ span => span
  | .expression captured => captured.span

namespace Markup

structure Attribute where
  name : String
  value : AttributeValue
  nameSpan : Span
  span : Span
deriving DecidableEq, Repr

structure Tag where
  name : String
  attributes : List Attribute
  selfClosing : Bool
  nameSpan : Span
deriving DecidableEq, Repr

/-- A node of the tree that a unit writes down. -/
inductive Node where
  | element (tag : Tag) (children : List Node) (span : Span)
  | text (value : String) (span : Span)
  | block (expression : Expression)

/-- What holds of a node when it holds of its children holds of every node. -/
theorem Node.induction_children {motive : Node → Prop}
    (element : ∀ tag children span, (∀ child ∈ children, motive child) →
      motive (.element tag children span))
    (text : ∀ value span, motive (.text value span))
    (block : ∀ expression, motive (.block expression)) (node : Node) : motive node := by
  match node with
  | .element tag children span =>
    exact element tag children span fun child _ => induction_children element text block child
  | .text value span => exact text value span
  | .block expression => exact block expression

def Node.span : Node → Span
  | element _ _ span => span
  | text _ span => span
  | block expression => expression.span

def Node.describe : Node → String
  | element tag _ _ => "<" ++ tag.name ++ ">"
  | text _ _ => "text"
  | block _ => "a code block"

/-- A whole unit: its root and the output type written behind it. -/
structure Source where
  root : Node
  output : Option (String × Span)
  span : Span

end Markup

end TypedMarkup
