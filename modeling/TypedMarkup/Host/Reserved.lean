/-!
Contract: the reserved words of host code.

Owns: `isReservedWord`. A reserved word is no name, and brackets behind one are no subscript.
-/

namespace TypedMarkup.Host

def reservedWords : List String := [
  "False", "None", "True", "and", "as", "assert", "async", "await", "break", "class", "continue",
  "def", "del", "elif", "else", "except", "finally", "for", "from", "global", "if", "import", "in",
  "is", "lambda", "nonlocal", "not", "or", "pass", "raise", "return", "try", "while", "with",
  "yield"]

def isReservedWord (word : String) : Bool :=
  reservedWords.contains word

end TypedMarkup.Host
