import TypedMarkup.Text.Printable

/-!
Contract: the quoted form of a text, as it stands in messages and in generated programs.

Owns: `quoted`. A text is written between single quotes, or between double quotes when it holds
a single quote and no double one. The backslash, the chosen quote and every character that is not
printable are escaped, all else stands as it is.
-/

namespace TypedMarkup.Text

/-- Lower case hexadecimal digits of a number, filled with zeros up to a width. -/
def hexDigits (width number : Nat) : List Char :=
  let digits := Nat.toDigits 16 number
  List.replicate (width - digits.length) '0' ++ digits

def quoteMark (text : List Char) : Char :=
  if text.contains '\'' && !text.contains '"' then '"' else '\''

def quoteCharacter (mark character : Char) : List Char :=
  if character == mark || character == '\\' then ['\\', character]
  else if character == '\n' then ['\\', 'n']
  else if character == '\r' then ['\\', 'r']
  else if character == '\t' then ['\\', 't']
  else if isPrintable character then [character]
  else if character.toNat < 0x100 then ['\\', 'x'] ++ hexDigits 2 character.toNat
  else if character.toNat < 0x10000 then ['\\', 'u'] ++ hexDigits 4 character.toNat
  else ['\\', 'U'] ++ hexDigits 8 character.toNat

def quoted (text : String) : String :=
  let mark := quoteMark text.toList
  String.ofList (mark :: text.toList.flatMap (quoteCharacter mark) ++ [mark])

end TypedMarkup.Text
