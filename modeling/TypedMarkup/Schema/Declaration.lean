import TypedMarkup.Markup.Basic
import TypedMarkup.Token.Cursor

/-!
Contract: element declarations as written.

Owns: `TypeSpec`, `Declaration` and the declaration grammar:

    name (attribute: Type, ...) in [Category, ...] with [required, ...] Constraint;

with braces around the attributes. Every part behind the name is optional. Attribute names are
kept in their look-up form, and a type path is kept as its last segment.

Does not own: whether the names that declarations use exist.
-/

namespace TypedMarkup

inductive TypeSpec where
  | mk (name : String) (arguments : List TypeSpec)

namespace TypeSpec

def name : TypeSpec → String
  | mk name _ => name

def arguments : TypeSpec → List TypeSpec
  | mk _ arguments => arguments

mutual

def text : TypeSpec → String
  | mk name [] => name
  | mk name (first :: rest) => name ++ "<" ++ first.text ++ textRest rest ++ ">"

def textRest : List TypeSpec → String
  | [] => ""
  | first :: rest => ", " ++ first.text ++ textRest rest

end

end TypeSpec

structure AttributeDeclaration where
  name : String
  type : TypeSpec
  span : Span

/-- One declaration, its names not yet resolved, with the text it was written in. -/
structure Declaration where
  name : String
  attributes : List AttributeDeclaration
  categories : List String
  required : List (String × Span)
  constraint : Option (String × Span)
  span : Span
  source : String

namespace Declaration

namespace Grammar

def atOpening (cursor : Cursor) (delimiter : Delimiter) : Bool :=
  match cursor.current with
  | .opening found _ => found == delimiter
  | _ => false

def atClosing (cursor : Cursor) (delimiter : Delimiter) : Bool :=
  match cursor.current with
  | .closing found _ => found == delimiter
  | _ => false

def atKeyword (cursor : Cursor) (word : Keyword) : Bool :=
  match cursor.current with
  | .keyword found _ => found == word
  | _ => false

/-- Reads the further parts of an attribute name: each is a dash that directly follows the part
before it, and an identifier. -/
def nameTail (last : Span) (cursor : Cursor) : List String × Cursor :=
  match _ahead : cursor.ahead with
  | .mark '-' dash :: .identifier part span :: _ =>
    if last.stop.offset = dash.start.offset then
      let tail := nameTail span cursor.forward.forward
      (part :: tail.1, tail.2)
    else ([], cursor)
  | _ => ([], cursor)
termination_by cursor.ahead.length
decreasing_by
  simp only [Cursor.forward, _ahead, List.length_cons]
  omega

def attributeName (cursor : Cursor) : Except CompileError (String × Cursor) := do
  let (first, span, behind) ← cursor.expectIdentifier [Label.identifier]
  let tail := nameTail span behind
  return (keyOf ("-".intercalate (first :: tail.1)), tail.2)

/-- Reads the further segments of a type path; the last one names the type. -/
def typePath (name : String) : (fuel : Nat) → Cursor → Except CompileError (String × Cursor)
  | 0, cursor => .ok (name, cursor)
  | fuel + 1, cursor =>
    if cursor.atMark ':' 0 && cursor.atMark ':' 1 && cursor.adjacent 1 then do
      let (next, _, behind) ← cursor.forward.forward.expectIdentifier [Label.identifier]
      typePath next fuel behind
    else .ok (name, cursor)

mutual

def typeSpec : (fuel : Nat) → Cursor → Except CompileError (TypeSpec × Cursor)
  | 0, cursor => .error (cursor.unexpected [Label.identifier])
  | fuel + 1, cursor => do
    let (first, _, behindFirst) ← cursor.expectIdentifier [Label.identifier]
    let (name, behind) ← typePath first behindFirst.ahead.length behindFirst
    if behind.atMark '<' 0 then
      let (argument, behindArgument) ← typeSpec fuel behind.forward
      let (more, behindMore) ← moreTypes fuel behindArgument
      let (_, rest) ← behindMore.expectMark '>' [Label.comma, Label.greater]
      return (.mk name (argument :: more), rest)
    else return (.mk name [], behind)

def moreTypes : (fuel : Nat) → Cursor → Except CompileError (List TypeSpec × Cursor)
  | 0, cursor => .ok ([], cursor)
  | fuel + 1, cursor =>
    if cursor.atMark ',' 0 then do
      let (argument, behind) ← typeSpec fuel cursor.forward
      let (more, rest) ← moreTypes fuel behind
      return (argument :: more, rest)
    else .ok ([], cursor)

end

/-- Reads items up to where they end, with a mark between them and perhaps one behind the last. -/
def listed {α : Type} (item : Cursor → Except CompileError (α × Cursor)) (mark : Char)
    (ends : Cursor → Bool) (expected : List String) :
    (fuel : Nat) → Cursor → Except CompileError (List α × Cursor)
  | 0, cursor => .error (cursor.unexpected expected)
  | fuel + 1, cursor =>
    if ends cursor then .ok ([], cursor)
    else do
      let (found, behind) ← item cursor
      if behind.atMark mark 0 then
        let (more, rest) ← listed item mark ends expected fuel behind.forward
        return (found :: more, rest)
      else if ends behind then return ([found], behind)
      else throw (behind.unexpected expected)

/-- Reads items between brackets, with commas between them. The opening bracket stands here. -/
def bracketed {α : Type} (item : Cursor → Except CompileError (α × Cursor))
    (delimiter : Delimiter) (closing : String) (cursor : Cursor) :
    Except CompileError (List α × Cursor) := do
  let (found, behind) ← listed item ',' (atClosing · delimiter) [Label.comma, closing]
    cursor.ahead.length cursor.forward
  return (found, behind.forward)

def attributePair (cursor : Cursor) : Except CompileError (AttributeDeclaration × Cursor) := do
  let (name, behindName) ← attributeName cursor
  let (_, behindColon) ← behindName.expectMark ':' [Label.colon]
  let (type, behind) ← typeSpec (2 * behindColon.ahead.length + 2) behindColon
  return (⟨name, type, cursor.current.span.join behind.previous.span⟩, behind)

def listedName (cursor : Cursor) : Except CompileError ((String × Span) × Cursor) := do
  let (name, span, behind) ← cursor.expectIdentifier [Label.identifier, Label.closeBracket]
  return ((name, span), behind)

def nameList (cursor : Cursor) : Except CompileError (List (String × Span) × Cursor) :=
  if atOpening cursor .bracket then bracketed listedName .bracket Label.closeBracket cursor
  else .error (cursor.unexpected [Label.openBracket])

def optionally {α : Type} (absent : α) (here : Cursor → Bool)
    (part : Cursor → Except CompileError (α × Cursor)) (cursor : Cursor) :
    Except CompileError (α × Cursor) :=
  if here cursor then part cursor else .ok (absent, cursor)

/-- Reads the categories of a declaration. The word `in` stands here. -/
def categories (cursor : Cursor) : Except CompileError (List String × Cursor) :=
  (nameList cursor.forward).map fun found => (found.1.map Prod.fst, found.2)

/-- Reads the content rule of a declaration: required children, a constraint, or both. The word
`with` stands here. -/
def content (cursor : Cursor) :
    Except CompileError ((List (String × Span) × Option (String × Span)) × Cursor) := do
  let (required, behind) ← optionally [] (atOpening · .bracket) nameList cursor.forward
  match behind.current with
  | .identifier name span => return ((required, some (name, span)), behind.forward)
  | _ =>
    if required.isEmpty then
      throw (behind.unexpected [Label.openBracket, Label.identifier])
    else return ((required, none), behind)

/-- What may still follow in a declaration, given its parts so far. -/
def expectedBehind (attributes : List AttributeDeclaration) (categories : List String)
    (required : List (String × Span)) (constraint : Option (String × Span)) : List String :=
  if constraint.isNone && required.isEmpty then
    if categories.isEmpty then
      if attributes.isEmpty then
        [Label.openBrace, Label.inWord, Label.withWord, Label.semicolon]
      else [Label.inWord, Label.withWord, Label.semicolon]
    else [Label.withWord, Label.semicolon]
  else [Label.semicolon]

/-- Reads one declaration, without the semicolon behind it. -/
def declaration (cursor : Cursor) : Except CompileError (Declaration × Cursor) := do
  let (name, nameSpan, behindName) ← cursor.expectIdentifier [Label.identifier]
  let (attributes, behindAttributes) ← optionally [] (atOpening · .brace)
    (bracketed attributePair .brace Label.closeBrace) behindName
  let (categories, behindCategories) ←
    optionally [] (atKeyword · .inWord) categories behindAttributes
  let ((required, constraint), behind) ←
    optionally ([], none) (atKeyword · .withWord) content behindCategories
  if behind.atMark ';' 0 || behind.atEnd then
    return ({ name := name
              attributes := attributes
              categories := categories
              required := required
              constraint := constraint
              span := nameSpan.join behind.previous.span
              source := cursor.source }, behind)
  else throw (behind.unexpected (expectedBehind attributes categories required constraint))

end Grammar

def parseAll (source : String) : Except CompileError (List Declaration) := do
  let tokens ← (tokenize source).mapError (CompileError.ofLexicalFault source)
  let cursor := Cursor.ofTokens source tokens.flatten.setKeywords
  let (found, _) ← Grammar.listed Grammar.declaration ';' Cursor.atEnd [Label.semicolon]
    (cursor.ahead.length + 1) cursor
  return found

end Declaration

end TypedMarkup
