import TypedMarkup.Document.View
import TypedMarkup.Token.Character

/-!
Contract: reading written documents.

Owns: `Reading`, what a reader sees of a document, `readAll`, what there is to see in views, and
`decode`, a reader of the written form that knows nothing of schemas. It goes through the text one
character at a time, and then puts the pieces together from the last one to the first.

In a start tag, an attribute without a value is read with an empty one. Texts that stand side by
side are read as one, and an empty text is not seen.
-/

namespace TypedMarkup

/-! ## What there is to read -/

/-- What a reader sees of a document. -/
inductive Reading where
  | text (content : String)
  | element (name : String) (attributes : List (String × String)) (children : List Reading)

namespace Reading

def prependText (content : String) (behind : List Reading) : List Reading :=
  if content = "" then behind
  else
    match behind with
    | text more :: rest => text (content ++ more) :: rest
    | other => text content :: other

end Reading

/-- The attributes by which handlers for text output are printed. -/
def printedHandlers (handlers : List (Document.Handler Value)) : List (String × String) :=
  handlers.filterMap fun handler => handler.text?.map fun text => ("on" ++ handler.event, text)

mutual

def View.readBefore (behind : List Reading) : View → List Reading
  | .text value => Reading.prependText value behind
  | .verbatim value => Reading.prependText value behind
  | .element name attributes handlers children =>
    .element name (attributes ++ printedHandlers handlers) (readAll children) :: behind

def readAll : List View → List Reading
  | [] => []
  | view :: rest => view.readBefore (readAll rest)

end

/-! ## The pieces of a text -/

/-- A start tag that is being read. -/
structure OpenTag where
  name : String
  attributes : List (String × String)
deriving DecidableEq, Repr

def OpenTag.withAttribute (tag : OpenTag) (name value : String) : OpenTag :=
  { tag with attributes := tag.attributes ++ [(name, value)] }

/-- The pieces of a written document: a character of text, a start tag, a tag that is its own end,
and an end tag. -/
inductive Piece where
  | character (value : Char)
  | start (tag : OpenTag)
  | single (tag : OpenTag)
  | finish (name : String)
deriving DecidableEq, Repr

/-- Where a reader is. Names, values and references come with what has been read of them. -/
inductive Mode where
  | content
  | reference (read : List Char)
  | opened
  | startName (read : List Char)
  | endName (read : List Char)
  | attributeName (tag : OpenTag) (read : List Char)
  | assigned (tag : OpenTag) (name : String)
  | value (tag : OpenTag) (name : String) (read : List Char)
  | valueReference (tag : OpenTag) (name : String) (read reference : List Char)
  | behindValue (tag : OpenTag)
  | slash (tag : OpenTag)
deriving DecidableEq, Repr

def isNameCharacter (character : Char) : Bool :=
  continuesIdentifier character || character == '-'

/-- The character that a reference stands for. -/
def referenced? : List Char → Option Char
  | ['a', 'm', 'p'] => some '&'
  | ['l', 't'] => some '<'
  | ['g', 't'] => some '>'
  | ['q', 'u', 'o', 't'] => some '"'
  | ['#', 'x', '2', '7'] => some '\''
  | _ => none

/-- The start tag as it stands if it goes on or ends here. -/
def Mode.tag? : Mode → Option OpenTag
  | startName (first :: rest) => some ⟨String.ofList (first :: rest), []⟩
  | attributeName tag (first :: rest) => some (tag.withAttribute (String.ofList (first :: rest)) "")
  | behindValue tag => some tag
  | _ => none

/-- Goes on from a character inside of a start tag, if the tag can go on or end here. -/
def tagStep (tag : OpenTag) : Char → Option (Option Piece × Mode)
  | ' ' => some (none, .attributeName tag [])
  | '/' => some (none, .slash tag)
  | '>' => some (some (.start tag), .content)
  | _ => none

/-- Goes on from a character where no start tag can end. -/
def plainStep (mode : Mode) (character : Char) : Option (Option Piece × Mode) :=
  match mode with
  | .content =>
    match character with
    | '<' => some (none, .opened)
    | '&' => some (none, .reference [])
    | '>' => none
    | other => some (some (.character other), .content)
  | .reference read =>
    if character = ';' then
      (referenced? read).map fun found => (some (.character found), .content)
    else some (none, .reference (read ++ [character]))
  | .opened =>
    if character = '/' then some (none, .endName [])
    else if isNameCharacter character then some (none, .startName [character])
    else none
  | .startName read =>
    if isNameCharacter character then some (none, .startName (read ++ [character])) else none
  | .endName read =>
    if character = '>' then some (some (.finish (String.ofList read)), .content)
    else if isNameCharacter character then some (none, .endName (read ++ [character]))
    else none
  | .attributeName tag read =>
    if character = '=' then some (none, .assigned tag (String.ofList read))
    else if isNameCharacter character then
      some (none, .attributeName tag (read ++ [character]))
    else none
  | .assigned tag name => if character = '"' then some (none, .value tag name []) else none
  | .value tag name read =>
    match character with
    | '"' => some (none, .behindValue (tag.withAttribute name (String.ofList read)))
    | '&' => some (none, .valueReference tag name read [])
    | other => some (none, .value tag name (read ++ [other]))
  | .valueReference tag name read reference =>
    if character = ';' then
      (referenced? reference).map fun found => (none, .value tag name (read ++ [found]))
    else some (none, .valueReference tag name read (reference ++ [character]))
  | .behindValue _ => none
  | .slash tag => if character = '>' then some (some (.single tag), .content) else none

/-- Goes on from one character: what it completes, and where the reader is then. -/
def step (mode : Mode) (character : Char) : Option (Option Piece × Mode) :=
  match mode.tag?.bind (tagStep · character) with
  | some found => some found
  | none => plainStep mode character

/-- Goes through characters: the pieces that they complete, and where the reader is then. -/
def scanPieces : Mode → List Char → Option (List Piece × Mode)
  | mode, [] => some ([], mode)
  | mode, character :: rest => do
    let stepped ← step mode character
    let scanned ← scanPieces stepped.2 rest
    return (stepped.1.toList ++ scanned.1, scanned.2)

/-! ## From pieces to documents -/

/-- What is read behind a place: beside it, and behind each end tag that is still without its start
tag, the innermost first. -/
structure Behind where
  beside : List Reading
  unfinished : List (String × List Reading)

def Piece.putBefore (behind : Behind) : Piece → Option Behind
  | character value =>
    some { behind with beside := Reading.prependText (String.singleton value) behind.beside }
  | single tag =>
    some { behind with beside := .element tag.name tag.attributes [] :: behind.beside }
  | finish name => some ⟨[], (name, behind.beside) :: behind.unfinished⟩
  | start tag =>
    match behind.unfinished with
    | (name, outside) :: rest =>
      if name = tag.name then
        some ⟨.element tag.name tag.attributes behind.beside :: outside, rest⟩
      else none
    | [] => none

/-- Puts pieces in front of what is read behind them. -/
def assemble (behind : Behind) : List Piece → Option Behind
  | [] => some behind
  | piece :: rest => (assemble behind rest).bind piece.putBefore

/-- Reads a written document. -/
def decode (text : String) : Option (List Reading) :=
  match scanPieces .content text.toList with
  | some (pieces, .content) =>
    match assemble ⟨[], []⟩ pieces with
    | some ⟨found, []⟩ => some found
    | _ => none
  | _ => none

end TypedMarkup
