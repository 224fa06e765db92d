import TypedMarkup.Host.Failure
import TypedMarkup.Schema.AttributeType
import TypedMarkup.Text.Numeral

/-!
Contract: the checks of texts that are more than text.

Owns: `CheckedText.check`, which tells whether a text is an identifier, a class name, a language
tag or a media type, and why not.
-/

namespace TypedMarkup

/-- Checks a name: a letter, then letters, numerals, underscores, dashes and points. -/
def checkName (what text : String) : Except Rejection Unit :=
  match text.toList with
  | [] => .error (.emptyName what)
  | first :: rest =>
    if !Text.isLetter first then .error (.nameStart what)
    else if rest.all fun character =>
        Text.isAlphanumeric character || character == '_' || character == '-' ||
          character == '.' then .ok ()
    else .error (.nameCharacter what)

def withoutFinalLineFeed (text : List Char) : List Char :=
  if text.getLast? == some '\n' then text.dropLast else text

def dashParts (begun : List Char) : List Char → List (List Char)
  | [] => [begun]
  | character :: rest =>
    if character == '-' then begun :: dashParts [] rest
    else dashParts (begun ++ [character]) rest

/-- Whether a part of a language tag has one to eight characters of a class. -/
def isTagPart (allowed : Char → Bool) (part : List Char) : Bool :=
  1 ≤ part.length && part.length ≤ 8 && part.all allowed

/-- Whether a text is a language tag: parts with dashes between them, the first of letters, the
others of letters and digits. One line feed may follow. -/
def isLanguageTag (text : String) : Bool :=
  match dashParts [] (withoutFinalLineFeed text.toList) with
  | [] => false
  | first :: rest => isTagPart Char.isAlpha first && rest.all (isTagPart Char.isAlphanum)

def isMediaCharacter (character : Char) : Bool :=
  Text.isAlphanumeric character || character == '_' || character == '.' || character == '+' ||
    character == '-'

def isLineEnd (text : List Char) : Bool :=
  text.isEmpty || text == ['\n']

/-- Whether a text may follow the names of a media type: nothing, or parameters behind a
semicolon on the same line. -/
def isMediaTail (text : List Char) : Bool :=
  isLineEnd text ||
    match text.dropWhile Text.isBlank with
    | ';' :: parameters => isLineEnd (parameters.dropWhile (· != '\n'))
    | _ => false

/-- Whether a text is a media type: two names with a slash between them, then parameters. -/
def isMediaType (text : String) : Bool :=
  let first := text.toList.takeWhile isMediaCharacter
  match text.toList.dropWhile isMediaCharacter with
  | '/' :: rest =>
    let second := rest.takeWhile isMediaCharacter
    !first.isEmpty && !second.isEmpty && isMediaTail (rest.dropWhile isMediaCharacter)
  | _ => false

def CheckedText.noun : CheckedText → String
  | id => "ID"
  | className => "class name"
  | languageTag => "language tag"
  | mediaType => "media type"

def CheckedText.check (kind : CheckedText) (text : String) : Except Rejection Unit :=
  match kind with
  | id => checkName kind.noun text
  | className => checkName kind.noun text
  | languageTag => if isLanguageTag text then .ok () else .error (.notLanguageTag text)
  | mediaType => if isMediaType text then .ok () else .error (.notMediaType text)

end TypedMarkup
