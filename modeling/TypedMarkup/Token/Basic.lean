import TypedMarkup.Source.Position
import TypedMarkup.Token.Character

/-!
Contract: tokens, the common input of both grammars.

Owns: `Token`, its span, its text as written and the value it stands for, and `Tokens`, a token
sequence together with the place where its source ends.

A bracketed group is one token that keeps its inner tokens; the flat view of a sequence has
`opening` and `closing` tokens instead.
-/

namespace TypedMarkup

/-- Words that the declaration grammar sets apart. -/
inductive Keyword where
  | inWord
  | withWord
deriving DecidableEq, Repr

def Keyword.text : Keyword → String
  | inWord => "in"
  | withWord => "with"

def Keyword.ofText? (text : String) : Option Keyword :=
  [inWord, withWord].find? fun word => word.text == text

/-- What sort of token is meant where a grammar asks for one. -/
inductive TokenKind where
  | identifier
  | literal
  | mark
  | keyword
  | group
  | opening
  | closing
  | endOfInput
deriving DecidableEq, Repr

inductive Token where
  | identifier (name : String) (span : Span)
  | number (text : String) (span : Span)
  | quoted (value raw : String) (span : Span)
  | mark (character : Char) (span : Span)
  | keyword (word : Keyword) (span : Span)
  | group (delimiter : Delimiter) (raw : String) (children : List Token) (span : Span)
  | opening (delimiter : Delimiter) (span : Span)
  | closing (delimiter : Delimiter) (span : Span)
  | endOfInput (position : Position)

instance : Inhabited Token := ⟨.endOfInput .origin⟩

namespace Token

def span : Token → Span
  | identifier _ span => span
  | number _ span => span
  | quoted _ _ span => span
  | mark _ span => span
  | keyword _ span => span
  | group _ _ _ span => span
  | opening _ span => span
  | closing _ span => span
  | endOfInput position => ⟨position, position⟩

def raw : Token → String
  | identifier name _ => name
  | number text _ => text
  | quoted _ raw _ => raw
  | mark character _ => String.singleton character
  | keyword word _ => word.text
  | group _ raw _ _ => raw
  | opening delimiter _ => String.singleton delimiter.opening
  | closing delimiter _ => String.singleton delimiter.closing
  | endOfInput _ => ""

/-- What a token stands for: a quoted literal its decoded content, a group its inner text. -/
def value : Token → String
  | quoted value _ _ => value
  | group _ raw _ _ => String.ofList ((raw.toList.drop 1).dropLast)
  | other => other.raw

def kind : Token → TokenKind
  | identifier _ _ => .identifier
  | number _ _ => .literal
  | quoted _ _ _ => .literal
  | mark _ _ => .mark
  | keyword _ _ => .keyword
  | group _ _ _ _ => .group
  | opening _ _ => .opening
  | closing _ _ => .closing
  | endOfInput _ => .endOfInput

def isMark (token : Token) (character : Char) : Bool :=
  match token with
  | mark found _ => found == character
  | _ => false

def isGroup (token : Token) (delimiter : Delimiter) : Bool :=
  match token with
  | group found _ _ _ => found == delimiter
  | _ => false

def isIdentifier : Token → Bool
  | identifier _ _ => true
  | _ => false

def isQuoted : Token → Bool
  | quoted _ _ _ => true
  | _ => false

def delimiter? : Token → Option Delimiter
  | group delimiter _ _ _ => some delimiter
  | opening delimiter _ => some delimiter
  | closing delimiter _ => some delimiter
  | _ => none

def describe : Token → String
  | endOfInput _ => "end of input"
  | group .brace _ _ _ => "code block"
  | group delimiter _ _ _ =>
    String.ofList ['\'', delimiter.opening, '.', '.', '.', delimiter.closing, '\'']
  | number text _ => "literal " ++ text
  | quoted _ raw _ => "literal " ++ raw
  | other => "'" ++ other.raw ++ "'"

end Token

/-- The tokens of a source text, and where the text ends. -/
structure Tokens where
  body : List Token
  stop : Position

def Tokens.toList (tokens : Tokens) : List Token :=
  tokens.body ++ [.endOfInput tokens.stop]

/-- Sets the words of the declaration grammar apart from other identifiers. -/
def Token.setKeyword : Token → Token
  | .identifier name span =>
    match Keyword.ofText? name with
    | some word => .keyword word span
    | none => .identifier name span
  | other => other

def Tokens.setKeywords (tokens : Tokens) : Tokens :=
  { tokens with body := tokens.body.map Token.setKeyword }

end TypedMarkup
