import TypedMarkup.Report
import TypedMarkup.Text.Quoted
import TypedMarkup.Token.Scan

/-!
Contract: everything that can be wrong with a markup unit, a declaration text or the values a
unit is built from.

Owns: the causes, grouped by the stage that finds them, the message of each cause, and
`CompileError`, a cause at its place.

Does not own: failures of host computations, which are no errors of a unit by themselves.
-/

namespace TypedMarkup

/-! Labels of what a grammar expects. -/

namespace Label

def less : String := "'<'"
def greater : String := "'>'"
def slash : String := "'/'"
def equals : String := "'='"
def semicolon : String := "';'"
def colon : String := "':'"
def comma : String := "','"
def identifier : String := "identifier"
def literal : String := "literal"
def codeBlock : String := "code block"
def group : String := "group"
def openBrace : String := "'\x7b'"
def closeBrace : String := "'\x7d'"
def openBracket : String := "'['"
def closeBracket : String := "']'"
def inWord : String := "'in'"
def withWord : String := "'with'"

def node : List String := [less, codeBlock, literal]

end Label

/-- Labels as a phrase: `a, b or c`. -/
def describeExpected (labels : List String) : String :=
  match labels.getLast? with
  | none => "nothing"
  | some last =>
    if labels.dropLast.isEmpty then last
    else ", ".intercalate labels.dropLast ++ " or " ++ last

def textHint : String := "text nodes need to be quoted, eg. <p>\"Hello Joe!\"</p>"

/-- Suggests quotes where an identifier stands in place of a node. -/
def nodeHint (labels : List String) (found : Token) : Option String :=
  if Label.node.all labels.contains && found.isIdentifier then some textHint else none

def LexicalCause.message : LexicalCause → String
  | unclosed delimiter => String.ofList ("unclosed '".toList ++ [delimiter.opening, '\''])
  | unexpectedClosing delimiter =>
    String.ofList ("unexpected closing '".toList ++ [delimiter.closing, '\''])
  | mismatchedClosing expected found =>
    String.ofList ("mismatched closing delimiter: expected '".toList ++ [expected.closing] ++
      "', found '".toList ++ [found.closing, '\''])
  | nul => "NUL character in source"
  | invalidCharacter character =>
    "invalid character " ++ Text.quoted (String.singleton character)
  | unterminatedLiteral => "unterminated string literal"
  | escapeAtEnd => "unexpected end of input in string escape"
  | shortHexadecimal digits =>
    s!"incomplete escape: expected 2 hex digits, got {digits}"
  | missingBrace => "expected '\x7b' after '\\u'"
  | malformedCodePoint => "malformed unicode escape, expected '\\u\x7bXXXX\x7d'"
  | codePointOutOfRange code =>
    "Unicode codepoint U+" ++ String.ofList ((Nat.toDigits 16 code).map Char.toUpper) ++
      " is out of range"
  | unknownEscape character =>
    "invalid escape sequence '\\" ++ String.singleton character ++ "'"

inductive GrammarCause where
  | unexpectedEnd (expected : List String)
  | unexpected (expected : List String) (found : Token)
  | bareNumber (found : Token)
  | superfluous
  | unclosedElement (name : String)
  | notAnExpression
  | remark (message : String) (hint : Option String)

namespace GrammarCause

def message : GrammarCause → String
  | unexpectedEnd _ => "unexpected end of input"
  | unexpected expected found =>
    "expected " ++ describeExpected expected ++ ", found " ++ found.describe
  | bareNumber found => "expected " ++ describeExpected Label.node ++ ", found " ++ found.describe
  | superfluous => "superfluous token"
  | unclosedElement name => s!"unclosed element <{name}>"
  | notAnExpression => "expression not understood; wrap it in braces"
  | remark message _ => message

def hint : GrammarCause → Option String
  | unexpectedEnd expected => some ("missing " ++ describeExpected expected)
  | unexpected expected found => nodeHint expected found
  | bareNumber _ => some textHint
  | unclosedElement name => some s!"add a closing tag '</{name}>'"
  | remark _ hint => hint
  | superfluous => none
  | notAnExpression => none

end GrammarCause

inductive TypeFault where
  | oneArgument (name : String)
  | noArguments (name : String)
  | unknown (name : String)
deriving DecidableEq, Repr

def TypeFault.message : TypeFault → String
  | oneArgument name => s!"{name} takes exactly one type argument"
  | noArguments name => s!"{name} does not take type arguments"
  | unknown name => s!"unknown attribute type '{name}'"

/-- What violates a schema, or the rules that make declarations a schema. -/
inductive SchemaCause where
  | repeatedElement (name : String)
  | attributeType (attributeName element : String) (fault : TypeFault)
  | undeclaredRequired (child parent : String)
  | undeclaredConstraint (name : String)
  | unknownElement (name : String)
  | tooFewChildren (parent : String) (required found : Nat)
  | wrongRequired (parent expected : String) (index : Nat) (found : String)
  | noChildren (parent found : String)
  | rejectedChild (parent constraint found : String)
  | unknownAttribute (attributeName element : String)
  | unknownOutput (name : String)
  | outputConflict (declared requested : String)
deriving DecidableEq, Repr

def unknownOutputMessage (name : String) : String :=
  s!"unknown output type '{name}'; expected String or Dom"

def SchemaCause.message : SchemaCause → String
  | repeatedElement name => s!"element '{name}' is declared more than once"
  | attributeType attributeName element fault =>
    s!"attribute '{attributeName}' on '{element}': " ++ fault.message
  | undeclaredRequired child parent =>
    s!"required child '{child}' of '{parent}' is not a declared element"
  | undeclaredConstraint name => s!"'{name}' is neither an element nor a content category"
  | unknownElement name => s!"unknown element <{name}>"
  | tooFewChildren parent required found =>
    s!"<{parent}> requires {required} children but there are only {found}"
  | wrongRequired parent expected index found =>
    s!"<{parent}> requires <{expected}> as child {index}, found {found}"
  | noChildren parent found => s!"<{parent}> does not accept children, found {found}"
  | rejectedChild parent constraint found =>
    s!"<{parent}> only accepts {constraint} children, found {found}"
  | unknownAttribute attributeName element =>
    s!"unknown attribute '{attributeName}' on <{element}>"
  | unknownOutput name => unknownOutputMessage name
  | outputConflict declared requested =>
    s!"output type annotation '{declared}' conflicts with requested output '{requested}'"

inductive ConstructionCause where
  | unboundName (name : String)
  | noMember (path member : String)
  | invalidExpression (reason : String)
  | evaluationFailed (kind message : String)
  | attributeRejected (name element reason : String)
  | handlerRejected (event element reason : String)
  | itemRejected (reason : String)
  | notSpliceable (typeName : String)
  | notNode (typeName : String)
  | rootCount (count : Nat)
  | reservedName (name : String)
deriving DecidableEq, Repr

def ConstructionCause.message : ConstructionCause → String
  | unboundName name => s!"cannot find value '{name}' in this scope"
  | noMember path member => s!"'{path}' has no member '{member}'"
  | invalidExpression reason => s!"invalid expression: {reason}"
  | evaluationFailed kind message => s!"evaluating expression failed: {kind}: {message}"
  | attributeRejected name element reason => s!"attribute '{name}' on <{element}>: {reason}"
  | handlerRejected event element reason => s!"on{event} on <{element}>: {reason}"
  | itemRejected reason => reason
  | notSpliceable typeName =>
    s!"a code block produced a {typeName}, expected a node or an iterable of nodes"
  | notNode typeName => s!"a code block produced a {typeName}, expected a node"
  | rootCount count => s!"a code block at the root must produce one node, got {count}"
  | reservedName name => s!"the name '{name}' is reserved in generated code"

inductive Cause where
  | lexical (cause : LexicalCause) (position : Position)
  | grammar (cause : GrammarCause)
  | tagMismatch (opened closed : String) (openedAt : Span)
  | schema (cause : SchemaCause)
  | attributeValue (element attributeName literal reason : String)
  | missingOutput (element event : String)
  | construction (cause : ConstructionCause)

namespace Cause

def message : Cause → String
  | lexical cause _ => cause.message
  | grammar cause => cause.message
  | tagMismatch opened closed _ => s!"expected closing tag '</{opened}>', found '</{closed}>'"
  | schema cause => cause.message
  | attributeValue element attributeName literal reason =>
    "invalid value " ++ Text.quoted literal ++
      s!" for attribute '{attributeName}' on <{element}>: {reason}"
  | missingOutput element event =>
    s!"event handler 'on{event}' on <{element}> needs a declared output type"
  | construction cause => cause.message

def notes : Cause → List Note
  | tagMismatch _ _ openedAt => [⟨"opening tag is here:", openedAt⟩]
  | _ => []

def hint : Cause → Option String
  | grammar cause => cause.hint
  | missingOutput _ _ =>
    some "add an explicit output type annotation, eg. `<button ...>...</button> : String`"
  | _ => none

end Cause

/-- A cause at its place in a source text. The source is empty when the error was found apart from
any text. -/
structure CompileError where
  cause : Cause
  span : Span
  source : String

namespace CompileError

def message (error : CompileError) : String := error.cause.message

def report (error : CompileError) : Report :=
  { message := error.cause.message
    span := error.span
    source := error.source
    notes := error.cause.notes
    hint := error.cause.hint }

def render (error : CompileError) (filename : String) : String :=
  error.report.render filename

/-- Gives an error the source it is about, unless it has one. -/
def withSource (error : CompileError) (source : String) : CompileError :=
  if error.source.isEmpty then { error with source := source } else error

/-- The error of a lexical fault: its span is the one character at its position. -/
def ofLexicalFault (source : String) (fault : LexicalFault) : CompileError :=
  { cause := .lexical fault.cause fault.position
    span := ⟨fault.position, fault.position.right⟩
    source := source }

/-- A construction error, found apart from any source text. -/
def construction (cause : ConstructionCause) (span : Span) : CompileError :=
  { cause := .construction cause, span := span, source := "" }

end CompileError

end TypedMarkup
