/-!
Contract: places in a source text.

Owns: `Position` (line and column from one, offset from zero, all in characters), `Span`, and how
a position moves over characters: only a line feed starts a new line.
-/

namespace TypedMarkup

/-- A place between two characters of a source text. -/
structure Position where
  line : Nat
  column : Nat
  offset : Nat
deriving DecidableEq, Repr, Inhabited

/-- The place before the first character. -/
def Position.origin : Position := ⟨1, 1, 0⟩

def Position.next (position : Position) (character : Char) : Position :=
  if character = '\n' then ⟨position.line + 1, 1, position.offset + 1⟩
  else ⟨position.line, position.column + 1, position.offset + 1⟩

def Position.after (position : Position) (text : List Char) : Position :=
  text.foldl Position.next position

def Position.right (position : Position) : Position :=
  ⟨position.line, position.column + 1, position.offset + 1⟩

def Position.left (position : Position) : Position :=
  ⟨position.line, position.column - 1, position.offset - 1⟩

structure Span where
  start : Position
  stop : Position
deriving DecidableEq, Repr, Inhabited

def Span.join (first last : Span) : Span := ⟨first.start, last.stop⟩

def Span.origin : Span := ⟨.origin, .origin⟩

def sliceOf (text : List Char) (start stop : Nat) : List Char :=
  (text.drop start).take (stop - start)

end TypedMarkup
