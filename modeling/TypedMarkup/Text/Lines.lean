import TypedMarkup.Text.Blank

/-!
Contract: cutting a text into lines.

Owns: `displayLines`, the cut that error snippets use, where every Unicode line boundary ends a
line, and `unifyLineEnds`, which turns the line ends of a file into line feeds.

Does not own: the line numbers of positions, which count line feeds only.
-/

namespace TypedMarkup.Text

def endsLine (character : Char) : Bool :=
  inRanges [(0x0A, 0x0D), (0x1C, 0x1E), (0x85, 0x85), (0x2028, 0x2029)] character.toNat

/-- The displayed lines of a text, each with its line end, after a line already begun. A carriage
return and the line feed after it end one line. -/
def linesFrom (begun : List Char) : List Char → List (List Char)
  | [] => if begun.isEmpty then [] else [begun]
  | '\r' :: '\n' :: rest => (begun ++ ['\r', '\n']) :: linesFrom [] rest
  | character :: rest =>
    if endsLine character then (begun ++ [character]) :: linesFrom [] rest
    else linesFrom (begun ++ [character]) rest

def displayLines (text : String) : List (List Char) :=
  linesFrom [] text.toList

/-- A displayed line without the carriage returns and line feeds at its end. -/
def withoutLineEnd (line : List Char) : List Char :=
  dropTrailing (· == '\r') (dropTrailing (· == '\n') line)

/-- Carriage returns, alone or before a line feed, become line feeds. -/
def unifyLineEndsOf : List Char → List Char
  | [] => []
  | '\r' :: '\n' :: rest => '\n' :: unifyLineEndsOf rest
  | character :: rest => (if character == '\r' then '\n' else character) :: unifyLineEndsOf rest

def unifyLineEnds (text : String) : String :=
  String.ofList (unifyLineEndsOf text.toList)

end TypedMarkup.Text
