import TypedMarkup.Text.Ranges

/-!
Contract: blank characters, and the cuts of a text that depend on them.

Owns: `isBlank` (Unicode 14 white space, with the four information separators of ASCII), `trim`
and `fields`.

Does not own: the blanks of the markup grammar, which are a smaller set.
-/

namespace TypedMarkup.Text

/-- The blank characters, as closed ranges of code points. -/
def blankRanges : List (Nat × Nat) := [
  (0x09, 0x0D), (0x1C, 0x20), (0x85, 0x85), (0xA0, 0xA0), (0x1680, 0x1680), (0x2000, 0x200A),
  (0x2028, 0x2029), (0x202F, 0x202F), (0x205F, 0x205F), (0x3000, 0x3000)]

def isBlank (character : Char) : Bool :=
  inRanges blankRanges character.toNat

/-- A text without its last characters that satisfy a test. -/
def dropTrailing (test : Char → Bool) (text : List Char) : List Char :=
  (text.reverse.dropWhile test).reverse

/-- A text without the characters at either end that satisfy a test. -/
def trimWhere (test : Char → Bool) (text : List Char) : List Char :=
  dropTrailing test (text.dropWhile test)

def trim (text : String) : String :=
  String.ofList (trimWhere isBlank text.toList)

/-- The maximal runs of characters that are not blank, after a run already begun. -/
def fieldsFrom (begun : List Char) : List Char → List (List Char)
  | [] => if begun.isEmpty then [] else [begun]
  | character :: rest =>
    if isBlank character then
      if begun.isEmpty then fieldsFrom [] rest else begun :: fieldsFrom [] rest
    else fieldsFrom (begun ++ [character]) rest

/-- The blank-separated parts of a text, in order and without empty ones. -/
def fields (text : String) : List String :=
  (fieldsFrom [] text.toList).map String.ofList

end TypedMarkup.Text
