import TypedMarkup.Markup.Capture
import TypedMarkup.Table

/-!
Contract: the markup grammar.

Owns: `Markup.parse`. A unit is a node and an optional output type behind a colon. A node is an
element, a quoted text or a code block. The names of the two tags of an element agree up to case.
Attributes with one key are one attribute: it keeps the place of the first and the value of the
last.
-/

namespace TypedMarkup.Markup

namespace Grammar

/-- Reads the further parts of a name: each is a dash and an identifier, with no space around the
dash. -/
def nameTail (last : Span) (cursor : Cursor) : List String × Span × Cursor :=
  match _ahead : cursor.ahead with
  | .mark '-' dash :: .identifier part span :: _ =>
    if last.stop.offset = dash.start.offset ∧ dash.stop.offset = span.start.offset then
      let tail := nameTail span cursor.forward.forward
      (part :: tail.1, tail.2)
    else ([], last, cursor)
  | _ => ([], last, cursor)
termination_by cursor.ahead.length
decreasing_by
  simp only [Cursor.forward, _ahead, List.length_cons]
  omega

def name (cursor : Cursor) : Except CompileError (String × Span × Cursor) := do
  let (first, span, behind) ← cursor.expectIdentifier [Label.identifier]
  let tail := nameTail span behind
  return ("-".intercalate (first :: tail.1), span.join tail.2.1, tail.2.2)

def value (cursor : Cursor) : Except CompileError (AttributeValue × Cursor) :=
  match cursor.current with
  | .number text span => .ok (.literal text text false span, cursor.forward)
  | .quoted decoded raw span => .ok (.literal decoded raw true span, cursor.forward)
  | _ =>
    if Capture.atExpression cursor then
      (Capture.expression cursor).map fun found => (.expression found.1, found.2)
    else .error (cursor.unexpected [Label.literal, Label.identifier, Label.group])

def attributePair (cursor : Cursor) : Except CompileError (Attribute × Cursor) := do
  let (name, nameSpan, behindName) ← name cursor
  let (_, behindEquals) ← behindName.expectMark '=' [Label.equals]
  let (value, behind) ← value behindEquals
  return (⟨name, value, nameSpan, nameSpan.join value.span⟩, behind)

/-- Reads the attributes of a start tag. `read` are those before, by their keys. -/
def attributes (read : Table Attribute) :
    (fuel : Nat) → Cursor → Except CompileError (List Attribute × Cursor)
  | 0, cursor => .error (cursor.unexpected [Label.identifier, Label.slash, Label.greater])
  | fuel + 1, cursor =>
    if cursor.current.isIdentifier then do
      let (found, behind) ← attributePair cursor
      attributes (read.put (keyOf found.name) found) fuel behind
    else .ok (read.map Prod.snd, cursor)

mutual

def node : (fuel : Nat) → Cursor → Except CompileError (Node × Cursor)
  | 0, cursor => .error (cursor.unexpected Label.node)
  | fuel + 1, cursor =>
    match cursor.current with
    | .mark '<' opened => do
      let (name, nameSpan, behindName) ← name cursor.forward
      let (attributes, behind) ← attributes [] behindName.ahead.length.succ behindName
      if behind.atMark '/' 0 then
        let (close, rest) ← behind.forward.expectMark '>' [Label.greater]
        return (.element ⟨name, attributes, true, nameSpan⟩ [] (opened.join close.span), rest)
      else if behind.atMark '>' 0 then
        let (children, behindChildren) ← children name nameSpan fuel behind.forward
        let (closed, closedSpan, behindClosed) ←
          Grammar.name behindChildren.forward.forward
        if closed.toLower = name.toLower then
          let (stop, rest) ← behindClosed.expectMark '>' [Label.greater]
          return (.element ⟨name, attributes, false, nameSpan⟩ children
            (opened.join stop.span), rest)
        else
          throw { cause := .tagMismatch name closed nameSpan
                  span := closedSpan
                  source := cursor.source }
      else throw (behind.unexpected [Label.identifier, Label.slash, Label.greater])
    | .quoted value _ span => .ok (.text value span, cursor.forward)
    | .group .brace raw inner span =>
      .ok (.block (Capture.groupExpression .brace (.group .brace raw inner span)),
        cursor.forward)
    | .number text span => .error (cursor.error (.bareNumber (.number text span)) span)
    | _ => .error (cursor.unexpected Label.node)

/-- Reads the children of an element up to its closing tag. -/
def children (name : String) (nameSpan : Span) :
    (fuel : Nat) → Cursor → Except CompileError (List Node × Cursor)
  | 0, cursor => .error (cursor.unexpected Label.node)
  | fuel + 1, cursor =>
    if cursor.atMark '<' 0 && cursor.atMark '/' 1 then .ok ([], cursor)
    else if cursor.atEnd then .error (cursor.error (.unclosedElement name) nameSpan)
    else do
      let (first, behind) ← node fuel cursor
      let (rest, stop) ← children name nameSpan fuel behind
      return (first :: rest, stop)

end

def unit (cursor : Cursor) : Except CompileError Source := do
  let (root, behind) ← node (2 * cursor.ahead.length + 2) cursor
  let (output, rest) ←
    if behind.atMark ':' 0 then do
      let (name, span, rest) ← behind.forward.expectIdentifier [Label.identifier]
      pure (some (name, span), rest)
    else pure (none, behind)
  if rest.atEnd then return ⟨root, output, root.span.join rest.previous.span⟩
  else throw rest.superfluous

end Grammar

def tokensOf (source : String) : Except CompileError Tokens :=
  (tokenize source).mapError (CompileError.ofLexicalFault source)

def parse (source : String) : Except CompileError Source := do
  let tokens ← tokensOf source
  Grammar.unit (.ofTokens source tokens)

end TypedMarkup.Markup
