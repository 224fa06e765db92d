import Mathlib.Data.Nat.Digits.Defs
import TypedMarkup.Proofs.Source.Position
import TypedMarkup.Token.Basic

/-!
Contract: the lexical language, as trees of the pieces of a text.

Owns: a type of trees for each rule of the language, the characters that a tree writes, the tokens
that it stands for, and what makes its words the longest that could stand in their places.

  layout ::= piece* [remark]
  piece  ::= gap | word | "(" piece* ")" | "[" piece* "]" | open brace piece* close brace
  gap    ::= blank | remark line-feed
  remark ::= "#" followed by characters other than a line feed
  word   ::= identifier | number | quote item* quote | mark
  item   ::= a character other than the quote and the backslash | backslash escape
  escape ::= a letter of `simpleEscapes` | "x" hex hex | "u" open brace hex{1,6} close brace

A remark without a line feed behind it stands only at the end of a text. The trees keep the side
conditions of their rules, so every tree is a derivation. A text may have many: the words of a
layout are cut anywhere, and only `Layout.Longest` fixes the cuts.

Does not own: how texts are read.
-/

namespace TypedMarkup.Lexis

/-! ## Quoted texts -/

/-- The letters that are escapes by themselves, with the characters they denote. -/
def simpleEscapes : List (Char × Char) :=
  [('\\', '\\'), ('"', '"'), ('\'', '\''), ('n', '\n'), ('r', '\r'), ('t', '\t'), ('0', '\x00')]

/-- The number that hexadecimal digits write, the first one the most significant. -/
def codeOf (digits : List Char) : Nat :=
  Nat.ofDigits 16
    (digits.reverse.map fun digit => "0123456789abcdef".toList.idxOf digit.toLower)

/-- An escape, without its backslash. -/
inductive Escape where
  | simple (letter denoted : Char) (listed : (letter, denoted) ∈ simpleEscapes)
  | hex (first second : Char) (firstHex : isHexDigit first = true)
      (secondHex : isHexDigit second = true)
  | codePoint (digits : List Char) (nonempty : digits ≠ []) (short : digits.length ≤ 6)
      (hex : ∀ digit ∈ digits, isHexDigit digit = true) (inRange : codeOf digits ≤ 0x10FFFF)

namespace Escape

def written : Escape → List Char
  | simple letter _ _ => [letter]
  | hex first second _ _ => ['x', first, second]
  | codePoint digits _ _ _ _ => 'u' :: '\x7b' :: digits ++ ['\x7d']

/-- The character that an escape denotes. A code point that is no character, a surrogate, counts as
the null character. -/
def denoted : Escape → Char
  | simple _ denoted _ => denoted
  | hex first second _ _ => Char.ofNat (codeOf [first, second])
  | codePoint digits _ _ _ _ => Char.ofNat (codeOf digits)

end Escape

/-- An item between two quotes. -/
inductive Item (quote : Char) where
  | plain (character : Char) (notQuote : character ≠ quote) (notBackslash : character ≠ '\\')
  | escape (escape : Escape)

namespace Item

variable {quote : Char}

def written : Item quote → List Char
  | plain character _ _ => [character]
  | escape found => '\\' :: found.written

def denoted : Item quote → Char
  | plain character _ _ => character
  | escape found => found.denoted

end Item

inductive Quote where
  | single
  | double

def Quote.character : Quote → Char
  | single => '\''
  | double => '"'

/-! ## Words -/

/-- What may follow the first digit of a number: identifier characters, and points that stand
directly before a digit. -/
def ContinuesNumber : List Char → Prop
  | [] => True
  | character :: rest =>
    (continuesIdentifier character = true ∨
      character = '.' ∧ ∃ digit more, rest = digit :: more ∧ digit.isDigit = true) ∧
    ContinuesNumber rest

inductive Word where
  | identifier (first : Char) (tail : List Char) (begins : beginsIdentifier first = true)
      (continues : ∀ character ∈ tail, continuesIdentifier character = true)
  | number (first : Char) (tail : List Char) (begins : first.isDigit = true)
      (continues : ContinuesNumber tail)
  | quoted (quote : Quote) (items : List (Item quote.character))
  | mark (character : Char) (legal : isMark character = true)

namespace Word

def first : Word → Char
  | identifier first _ _ _ => first
  | number first _ _ _ => first
  | quoted quote _ => quote.character
  | mark character _ => character

/-- The characters behind the first one. -/
def tail : Word → List Char
  | identifier _ tail _ _ => tail
  | number _ tail _ _ => tail
  | quoted quote items => items.flatMap Item.written ++ [quote.character]
  | mark _ _ => []

def written (word : Word) : List Char := word.first :: word.tail

/-- The token of a word. A quoted text has the characters that its items denote as its value. -/
def token (word : Word) (span : Span) : Token :=
  match word with
  | identifier _ _ _ _ => .identifier (String.ofList word.written) span
  | number _ _ _ _ => .number (String.ofList word.written) span
  | quoted _ items =>
    .quoted (String.ofList (items.map Item.denoted)) (String.ofList word.written) span
  | mark character _ => .mark character span

/-- No other word that could begin here, in front of the same text, is longer. -/
def LongestBefore (word : Word) (after : List Char) : Prop :=
  ∀ other : Word, other.written <+: word.written ++ after →
    other.written.length ≤ word.written.length

end Word

/-! ## Texts -/

/-- A comment, without the line feed that ends it. -/
structure Remark where
  body : List Char
  oneLine : '\n' ∉ body

def Remark.written (remark : Remark) : List Char := '#' :: remark.body

/-- What separates words: a blank, or a comment and its line feed. -/
inductive Gap where
  | blank (character : Char) (legal : isGap character = true)
  | comment (remark : Remark)

def Gap.written : Gap → List Char
  | blank character _ => [character]
  | comment remark => remark.written ++ ['\n']

inductive Piece where
  | gap (gap : Gap)
  | word (word : Word)
  | group (delimiter : Delimiter) (inner : List Piece)

mutual

def Piece.written : Piece → List Char
  | .gap gap => gap.written
  | .word word => word.written
  | .group delimiter inner => delimiter.opening :: writtenAll inner ++ [delimiter.closing]

def writtenAll : List Piece → List Char
  | [] => []
  | piece :: rest => piece.written ++ writtenAll rest

end

mutual

def Piece.tokens (start : Position) : Piece → List Token
  | .gap _ => []
  | .word word => [word.token ⟨start, start.after word.written⟩]
  | .group delimiter inner =>
    let written := (Piece.group delimiter inner).written
    [.group delimiter (String.ofList written)
      (tokensAll (start.next delimiter.opening) inner) ⟨start, start.after written⟩]

def tokensAll (start : Position) : List Piece → List Token
  | [] => []
  | piece :: rest => piece.tokens start ++ tokensAll (start.after piece.written) rest

end

mutual

/-- Every word of a piece is the longest in front of what follows. -/
def Piece.LongestBefore (after : List Char) : Piece → Prop
  | .gap _ => True
  | .word word => word.LongestBefore after
  | .group delimiter inner => LongestAll (delimiter.closing :: after) inner

def LongestAll (after : List Char) : List Piece → Prop
  | [] => True
  | piece :: rest => piece.LongestBefore (writtenAll rest ++ after) ∧ LongestAll after rest

end

/-- A whole text: its pieces, and a last comment that the text ends before a line feed. -/
structure Layout where
  pieces : List Piece
  remark : Option Remark

namespace Layout

/-- The characters of the last comment, if there is one. -/
def ending (layout : Layout) : List Char := (layout.remark.map Remark.written).getD []

def written (layout : Layout) : List Char := writtenAll layout.pieces ++ layout.ending

def tokens (layout : Layout) : Tokens :=
  ⟨tokensAll .origin layout.pieces, Position.origin.after layout.written⟩

def Longest (layout : Layout) : Prop := LongestAll layout.ending layout.pieces

end Layout

/-! ## Small facts -/

@[simp] theorem writtenAll_nil : writtenAll [] = [] := by rw [writtenAll]

@[simp] theorem writtenAll_cons (piece : Piece) (rest : List Piece) :
    writtenAll (piece :: rest) = piece.written ++ writtenAll rest := by rw [writtenAll]

@[simp] theorem writtenAll_append (first second : List Piece) :
    writtenAll (first ++ second) = writtenAll first ++ writtenAll second := by
  induction first with
  | nil => simp
  | cons piece rest ih => simp [ih]

@[simp] theorem written_gap (gap : Gap) : (Piece.gap gap).written = gap.written := by
  rw [Piece.written]

@[simp] theorem written_word (word : Word) : (Piece.word word).written = word.written := by
  rw [Piece.written]

@[simp] theorem written_group (delimiter : Delimiter) (inner : List Piece) :
    (Piece.group delimiter inner).written =
      delimiter.opening :: (writtenAll inner ++ [delimiter.closing]) := by
  rw [Piece.written, List.cons_append]

/-- Induction on the pieces of a text and on those inside of its groups. -/
theorem pieces_induction {motive : List Piece → Prop} (nil : motive [])
    (gap : ∀ gap rest, motive rest → motive (.gap gap :: rest))
    (word : ∀ word rest, motive rest → motive (.word word :: rest))
    (group : ∀ delimiter inner rest, motive inner → motive rest →
      motive (.group delimiter inner :: rest)) (pieces : List Piece) : motive pieces := by
  match pieces with
  | [] => exact nil
  | .gap own :: rest => exact gap own rest (pieces_induction nil gap word group rest)
  | .word own :: rest => exact word own rest (pieces_induction nil gap word group rest)
  | .group delimiter inner :: rest =>
    exact group delimiter inner rest (pieces_induction nil gap word group inner)
      (pieces_induction nil gap word group rest)

end TypedMarkup.Lexis
