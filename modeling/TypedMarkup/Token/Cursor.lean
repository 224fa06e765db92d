import TypedMarkup.CompileError
import TypedMarkup.Token.Nesting

/-!
Contract: reading a token sequence from left to right.

Owns: `Cursor`, the place between the tokens already read and those ahead, look-ahead, and the
errors of a token that does not fit.

The end of the input can be looked at any number of times but is never read over.
-/

namespace TypedMarkup

structure Cursor where
  source : String
  passed : List Token
  ahead : List Token
  stop : Position

namespace Cursor

def ofTokens (source : String) (tokens : Tokens) : Cursor :=
  { source := source, passed := [], ahead := tokens.body, stop := tokens.stop }

/-- The token that many places ahead, the end of the input behind the last one. -/
def peek (cursor : Cursor) (offset : Nat) : Token :=
  (cursor.ahead[offset]?).getD (.endOfInput cursor.stop)

def current (cursor : Cursor) : Token := cursor.peek 0

def index (cursor : Cursor) : Nat := cursor.passed.length

def atMark (cursor : Cursor) (character : Char) (offset : Nat) : Bool :=
  (cursor.peek offset).isMark character

def atEnd (cursor : Cursor) : Bool := cursor.ahead.isEmpty

def forward (cursor : Cursor) : Cursor :=
  match cursor.ahead with
  | [] => cursor
  | token :: rest => { cursor with passed := token :: cursor.passed, ahead := rest }

/-- The token read last, or the first one when none has been read. -/
def previous (cursor : Cursor) : Token :=
  cursor.passed.head?.getD cursor.current

def first (cursor : Cursor) : Token :=
  cursor.passed.getLast?.getD cursor.current

/-- Whether the token that many places ahead directly follows the one before it. -/
def adjacent (cursor : Cursor) (offset : Nat) : Bool :=
  match offset with
  | 0 =>
    !cursor.passed.isEmpty &&
      cursor.previous.span.stop.offset == cursor.current.span.start.offset
  | before + 1 =>
    (cursor.peek before).span.stop.offset == (cursor.peek (before + 1)).span.start.offset

def error (cursor : Cursor) (cause : GrammarCause) (span : Span) : CompileError :=
  { cause := .grammar cause, span := span, source := cursor.source }

/-- The error of a next token that is none of those expected. -/
def unexpected (cursor : Cursor) (expected : List String) : CompileError :=
  if cursor.atEnd then
    cursor.error (.unexpectedEnd expected) (cursor.first.span.join cursor.current.span)
  else cursor.error (.unexpected expected cursor.current) cursor.current.span

/-- The error of a token behind a complete text. -/
def superfluous (cursor : Cursor) : CompileError :=
  cursor.error .superfluous cursor.current.span

def expectMark (cursor : Cursor) (character : Char) (expected : List String) :
    Except CompileError (Token × Cursor) :=
  if cursor.atMark character 0 then .ok (cursor.current, cursor.forward)
  else .error (cursor.unexpected expected)

def expect (cursor : Cursor) (kind : TokenKind) (expected : List String) :
    Except CompileError (Token × Cursor) :=
  if cursor.current.kind = kind then .ok (cursor.current, cursor.forward)
  else .error (cursor.unexpected expected)

def expectIdentifier (cursor : Cursor) (expected : List String) :
    Except CompileError (String × Span × Cursor) :=
  match cursor.current with
  | .identifier name span => .ok (name, span, cursor.forward)
  | _ => .error (cursor.unexpected expected)

end Cursor

end TypedMarkup
