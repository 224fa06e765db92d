/-!
Contract: the two escapings of rendered markup.

Owns: `escapeContent` for text between tags and `escapeAttribute` for double-quoted values. Each
reserved character becomes one character reference, all else stands as it is.
-/

namespace TypedMarkup.Text

def contentCharacter (character : Char) : List Char :=
  match character with
  | '&' => ['&', 'a', 'm', 'p', ';']
  | '<' => ['&', 'l', 't', ';']
  | '>' => ['&', 'g', 't', ';']
  | other => [other]

def attributeCharacter (character : Char) : List Char :=
  match character with
  | '"' => ['&', 'q', 'u', 'o', 't', ';']
  | '\'' => ['&', '#', 'x', '2', '7', ';']
  | other => contentCharacter other

def escapeContent (text : String) : String :=
  String.ofList (text.toList.flatMap contentCharacter)

/-- Text as it stands in a double-quoted attribute value. -/
def escapeAttribute (text : String) : String :=
  String.ofList (text.toList.flatMap attributeCharacter)

end TypedMarkup.Text
