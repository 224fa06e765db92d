/-!
Contract: the character classes of the markup and declaration grammars.

Owns: identifier characters, hexadecimal digits, blanks, single-character marks and the three
pairs of delimiters. All classes are ASCII: any other character is only legal inside a quoted
literal or a comment.
-/

namespace TypedMarkup

def beginsIdentifier (character : Char) : Bool :=
  character == '_' || character.isAlpha

def continuesIdentifier (character : Char) : Bool :=
  beginsIdentifier character || character.isDigit

def isHexDigit (character : Char) : Bool :=
  "0123456789abcdefABCDEF".toList.contains character

def hexValue (digit : Char) : Nat :=
  if digit.isDigit then digit.toNat - '0'.toNat
  else if digit.isLower then digit.toNat - 'a'.toNat + 10
  else digit.toNat - 'A'.toNat + 10

def hexNumber (digits : List Char) : Nat :=
  digits.foldl (fun number digit => 16 * number + hexValue digit) 0

def isGap (character : Char) : Bool :=
  character == ' ' || character == '\t' || character == '\r' || character == '\n' ||
    character == '\x0c'

def isMark (character : Char) : Bool :=
  "!$%&*+,-./:;<=>?@\\^`|~".toList.contains character

inductive Delimiter where
  | paren
  | bracket
  | brace
deriving DecidableEq, Repr

namespace Delimiter

def opening : Delimiter → Char
  | paren => '('
  | bracket => '['
  | brace => '\x7b'

def closing : Delimiter → Char
  | paren => ')'
  | bracket => ']'
  | brace => '\x7d'

def ofOpening? (character : Char) : Option Delimiter :=
  [paren, bracket, brace].find? fun delimiter => delimiter.opening == character

def ofClosing? (character : Char) : Option Delimiter :=
  [paren, bracket, brace].find? fun delimiter => delimiter.closing == character

end Delimiter

/-- Whether a text has one of the identifier classes, for texts of any length: the comparisons are
those of the order on texts, so a longer text counts by its first characters. -/
structure CharacterClasses where
  beginsIdentifier : Bool
  continuesIdentifier : Bool
  isHexDigit : Bool
deriving DecidableEq, Repr

def classesOf (text : String) : CharacterClasses :=
  let within (low high : String) : Bool := !(text < low) && !(high < text)
  let starts := text == "_" || within "a" "z" || within "A" "Z"
  { beginsIdentifier := starts
    continuesIdentifier := starts || within "0" "9"
    isHexDigit := !text.isEmpty &&
      (List.range 23).any fun start =>
        text.toList.isPrefixOf ("0123456789abcdefABCDEF".toList.drop start) }

end TypedMarkup
