import TypedMarkup.Proofs.Token.Faults

/-!
Contract: tokens do not depend on where their text stands.

Owns: `Position.shift`, the place in a text of a place in a part of the text, `Token.relocate`,
which changes the places of a token and of those inside it, and the theorem that tokens next to each
other are the tokens of the text that they cover, read by itself and put in its place.

A text is cut between its pieces. A part of it is laid out by the pieces between two cuts, and their
words stay the longest, since less text can follow them.
-/

namespace TypedMarkup

open Lexis

/-! ## Places of a part of a text -/

/-- The place in a text of a place in a part of it that begins at `base`. -/
def Position.shift (base position : Position) : Position :=
  { line := base.line + (position.line - 1)
    column :=
      if position.line = 1 then base.column + (position.column - 1) else position.column
    offset := base.offset + position.offset }

namespace Position

theorem shift_next (base : Position) {position : Position} (line : 1 ≤ position.line)
    (column : 1 ≤ position.column) (character : Char) :
    base.shift (position.next character) = (base.shift position).next character := by
  by_cases feed : character = '\n'
  · have later : position.line + 1 ≠ 1 := by omega
    have lines : base.line + (position.line + 1 - 1) = base.line + (position.line - 1) + 1 := by
      omega
    simp only [next, if_pos feed, shift, if_neg later, lines, Nat.add_assoc]
  · have columns : base.column + (position.column + 1 - 1) =
        base.column + (position.column - 1) + 1 := by
      omega
    simp only [next, if_neg feed, shift, columns, Nat.add_assoc]
    split <;> rfl

/-- A place of a part is reached in the whole text over the same characters. -/
theorem shift_origin_after (base : Position) (text : List Char) :
    base.shift (origin.after text) = base.after text := by
  induction text using List.reverseRecOn with
  | nil => rfl
  | append_singleton before last ih =>
    have line : 1 ≤ (origin.after before).line := by
      rw [origin_after_line]
      omega
    have column : 1 ≤ (origin.after before).column := by
      rw [origin_after_column]
      omega
    simp only [after_append, after_cons, after_nil]
    rw [shift_next base line column, ih]

end Position

/-! ## Tokens at other places -/

/-- A span with its places changed. -/
def Span.relocate (move : Position → Position) (span : Span) : Span :=
  ⟨move span.start, move span.stop⟩

mutual

/-- A token with its places changed, and those of the tokens inside it. -/
def Token.relocate (move : Position → Position) : Token → Token
  | .identifier name span => .identifier name (span.relocate move)
  | .number text span => .number text (span.relocate move)
  | .quoted value raw span => .quoted value raw (span.relocate move)
  | .mark character span => .mark character (span.relocate move)
  | .keyword word span => .keyword word (span.relocate move)
  | .group delimiter raw children span =>
    .group delimiter raw (relocateAll move children) (span.relocate move)
  | .opening delimiter span => .opening delimiter (span.relocate move)
  | .closing delimiter span => .closing delimiter (span.relocate move)
  | .endOfInput position => .endOfInput (move position)

/-- Tokens with their places changed. -/
def relocateAll (move : Position → Position) : List Token → List Token
  | [] => []
  | token :: rest => token.relocate move :: relocateAll move rest

end

section

variable {move : Position → Position}

theorem relocateAll_eq_map (tokens : List Token) :
    relocateAll move tokens = tokens.map (Token.relocate move) := by
  induction tokens with
  | nil => rw [relocateAll, List.map_nil]
  | cons token rest ih =>
    rw [relocateAll, ih, List.map_cons]

@[simp] theorem Token.span_relocate (token : Token) :
    (token.relocate move).span = token.span.relocate move := by
  cases token <;> rw [relocate] <;> rfl

mutual

theorem Token.relocate_id (token : Token) : token.relocate id = token := by
  cases token with
  | group delimiter raw children span =>
    rw [Token.relocate, relocateAll_id children]
    rfl
  | _ =>
    rw [Token.relocate]
    rfl

theorem relocateAll_id (tokens : List Token) : relocateAll id tokens = tokens := by
  cases tokens with
  | nil => rw [relocateAll]
  | cons token rest => rw [relocateAll, token.relocate_id, relocateAll_id rest]

end

theorem Lexis.Word.relocate_token (word : Lexis.Word) (span : Span) :
    (word.token span).relocate move = word.token (span.relocate move) := by
  cases word <;> simp [Word.token, Token.relocate]

end

/-- The tokens of pieces are the same wherever they stand, up to their places. -/
theorem relocate_pieces (base : Position) (pieces : List Lexis.Piece) (before : List Char) :
    (tokensAll (Position.origin.after before) pieces).map (Token.relocate base.shift) =
      tokensAll (base.after before) pieces := by
  have moved (before written : List Char) : Span.relocate base.shift
      ⟨Position.origin.after before, (Position.origin.after before).after written⟩ =
        ⟨base.after before, (base.after before).after written⟩ := by
    rw [Span.relocate, ← Position.after_append, Position.shift_origin_after,
      Position.shift_origin_after, Position.after_append]
  induction pieces using pieces_induction generalizing before with
  | nil => simp [tokensAll]
  | gap gap rest ih => simpa [tokensAll, Piece.tokens] using ih (before ++ gap.written)
  | word word rest ih =>
    simpa [tokensAll, Piece.tokens, word.relocate_token, moved] using ih (before ++ word.written)
  | group delimiter inner rest inside ih =>
    have further := ih (before ++ (Lexis.Piece.group delimiter inner).written)
    have within := inside (before ++ [delimiter.opening])
    simp only [Position.after_append, Position.after_cons, Position.after_nil] at further within
    simp only [tokensAll, Piece.tokens, List.singleton_append, List.map_cons, Token.relocate,
      relocateAll_eq_map, within, further, moved]

/-! ## Tokens next to each other -/

def Span.textIn (source : String) (span : Span) : String :=
  String.ofList (sliceOf source.toList span.start.offset span.stop.offset)

/-- Tokens next to each other have pieces next to each other, which lay out the text that the tokens
cover. -/
theorem exists_pieces_of_covers {start : Position} {pieces : List Lexis.Piece}
    {left middle right : List Token} {span : Span}
    (split : tokensAll start pieces = left ++ (middle ++ right)) (covers : span.Covers middle) :
    ∃ front inner back, pieces = front ++ (inner ++ back) ∧
      tokensAll (start.after (writtenAll front)) inner = middle ∧
      span = ⟨start.after (writtenAll front),
        (start.after (writtenAll front)).after (writtenAll inner)⟩ := by
  obtain ⟨⟨first, isFirst, starts⟩, last, isLast, stops⟩ := covers
  obtain ⟨rest, rfl⟩ := List.head?_eq_some_iff.mp isFirst
  rw [List.cons_append] at split
  obtain ⟨front, piece, more, rfl, -, isPiece, others, place⟩ :=
    Lexis.exists_piece_of_token split
  -- The pieces behind the cut before the first token, cut once more behind the last one.
  obtain ⟨init, ends⟩ := List.getLast?_eq_some_iff.mp isLast
  have remaining : tokensAll (start.after (writtenAll front)) (piece :: more) =
      init ++ last :: right := by
    rw [tokensAll, isPiece, ← Position.after_append, others, List.singleton_append,
      ← List.cons_append, ends, List.append_assoc, List.singleton_append]
  obtain ⟨inner, final, back, pieces, before, isFinal, -, lastPlace⟩ :=
    Lexis.exists_piece_of_token remaining
  refine ⟨front, inner ++ [final], back, by rw [pieces]; simp, ?_, ?_⟩
  · rw [Lexis.tokensAll_append, before, tokensAll, tokensAll, List.append_nil, isFinal, ends]
  · obtain ⟨begins, finishes⟩ := span
    simp only [place, lastPlace] at starts stops
    rw [starts, stops]
    simp

/-- Tokens next to each other are the tokens of the text that they cover, put in their place. -/
theorem tokenize_covered {source : String} {tokens : Tokens} {left middle right : List Token}
    {span : Span} (read : tokenize source = .ok tokens)
    (split : tokens.body = left ++ (middle ++ right)) (covers : span.Covers middle) :
    ∃ alone : Tokens, tokenize (span.textIn source) = .ok alone ∧
      alone.body.map (Token.relocate span.start.shift) = middle ∧
      span.start.shift alone.stop = span.stop := by
  obtain ⟨layout, longest, written, rfl⟩ := tokenize_eq_ok.mp read
  obtain ⟨front, inner, back, pieces, isMiddle, rfl⟩ := exists_pieces_of_covers split covers
  have text : source.toList =
      writtenAll front ++ (writtenAll inner ++ (writtenAll back ++ layout.ending)) := by
    rw [← written, Layout.written, pieces]
    simp
  have covered : Span.textIn source ⟨Position.origin.after (writtenAll front),
      (Position.origin.after (writtenAll front)).after (writtenAll inner)⟩ =
        String.ofList (writtenAll inner) := by
    rw [Span.textIn, text]
    simp only [Position.after_offset, Position.origin, Nat.zero_add]
    rw [sliceOf_parts _ _ _ rfl rfl]
  rw [Layout.Longest, pieces, Lexis.longestAll_append, Lexis.longestAll_append] at longest
  rw [covered]
  refine ⟨_, tokenize_pieces longest.2.1, ?_, Position.shift_origin_after _ _⟩
  rw [← isMiddle]
  exact relocate_pieces _ inner []

end TypedMarkup
