import TypedMarkup.Host.Display
import TypedMarkup.Program.Emission

/-!
Contract: the text of construction programs.

Owns: `Program.text`, the source of a module with one function that runs the program, and
`Plan.emit`.
-/

namespace TypedMarkup

namespace Program

def header (filename : String) : String :=
  "\"\"\"Generated by typedhtml from " ++ filename ++ ". Do not edit.\"\"\"\n\n" ++
    "from typedhtml.dom import TextNode as _TextNode, TypedElement as _TypedElement\n" ++
    "from typedhtml.events import OutputType as _OutputType, bind as _bind\n" ++
    "from typedhtml.expr import Scope as _Scope, lookup as _lookup, " ++
    "resolve_path as _resolve_path\n" ++
    "from typedhtml.generator import splice_items as _splice_items\n" ++
    "from typedhtml.html5 import default_registry as _default_registry\n" ++
    "from typedhtml.tokens import Position as _Position, Span as _Span\n\n"

def variableName (index : Nat) : String := s!"_e{index}"

def Operand.code : Operand → String
  | .made index => variableName index
  | .text value => "_TextNode(" ++ Text.quoted value ++ ")"

def outputCode : Option OutputType → String
  | none => "None"
  | some .string => "_OutputType.STRING"
  | some .dom => "_OutputType.DOM"

/-- The text of an expression: a path is looked up, host code stands as it is. -/
def expressionCode : Expression → String
  | .path head members _ =>
    "_resolve_path(_ns, " ++ tupleText ((head :: members).map Text.quoted) ++ ")"
  | .call _ code _ => code
  | .group _ code _ => code

def positionCode (position : Position) : String :=
  s!"_Position({position.line}, {position.column}, {position.offset})"

def spanCode (span : Span) : String :=
  "_Span(" ++ positionCode span.start ++ ", " ++ positionCode span.stop ++ ")"

def spliceCode (code : Expression) : String :=
  "_splice_items(" ++ expressionCode code ++ ", " ++ spanCode code.span ++ ")"

def dataCode : TextSource → String
  | .literal written => Text.quoted written
  | .expression code => "str(" ++ expressionCode code ++ ")"

def handlerCode : TextSource → String
  | .literal written => Text.quoted written
  | .expression code => expressionCode code

def Statement.code (output : Option OutputType) : Statement → String
  | create index schemaName =>
    variableName index ++ " = _TypedElement(_registry[" ++ Text.quoted schemaName ++ "], " ++
      outputCode output ++ ")"
  | parseAttribute index name literal =>
    variableName index ++ ".parse_attribute(" ++ Text.quoted name ++ ", " ++
      Text.quoted literal ++ ")"
  | coerceAttribute index name expression =>
    variableName index ++ ".coerce_attribute(" ++ Text.quoted name ++ ", " ++
      expressionCode expression ++ ")"
  | setData index name source =>
    variableName index ++ ".set_data(" ++ Text.quoted name ++ ", " ++ dataCode source ++ ")"
  | setEvent index event source =>
    variableName index ++ ".set_event(_bind(" ++ outputCode output ++ ", " ++
      Text.quoted event ++ ", " ++ handlerCode source ++ "))"
  | setRequired index children =>
    variableName index ++ ".set_required([" ++
      commaSeparated (children.map variableName) ++ "])"
  | append index child => variableName index ++ ".append(" ++ child.code ++ ")"
  | extend index expression =>
    variableName index ++ ".extend(" ++ spliceCode expression ++ ")"
  | take index expression => "(" ++ variableName index ++ ",) = " ++ spliceCode expression

def bodyLine (text : String) : String := "    " ++ text ++ "\n"

def text (program : Program) (filename : String) : String :=
  let lookups := program.names.map fun name =>
    bodyLine (name ++ " = _lookup(_ns, " ++ Text.quoted name ++ ")")
  let body := program.statements.map fun statement => bodyLine (statement.code program.output)
  header filename ++ "\ndef build(scope=None, registry=None):\n" ++
    bodyLine "_registry = _default_registry() if registry is None else registry" ++
    bodyLine "_ns = scope if isinstance(scope, _Scope) else _Scope(scope)" ++
    String.join lookups ++ String.join body ++ bodyLine ("return " ++ program.result.code)

end Program

def Plan.emit (plan : Plan) (filename : String) : Except Failure String :=
  plan.program.map fun program => program.text filename

end TypedMarkup
