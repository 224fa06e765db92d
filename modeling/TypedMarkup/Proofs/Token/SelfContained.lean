import TypedMarkup.Proofs.Token.Relocation

/-!
Contract: tokens are read from their own text.

Owns: that every token of a text, at any depth, is the one token of its text read alone, that the
tokens of a group are those of the text between its brackets, and that the texts of tokens are read
again as these tokens with one blank between neighbours.

Whether a word is the longest in its place is decided before the first character that no word takes.
Closing brackets and blanks are such characters, so what is read does not depend on anything behind
them.
-/

namespace TypedMarkup

open Lexis

/-! ## Words in front of another text -/

namespace Lexis

theorem Word.longest_of_stops {word : Lexis.Word} {after : List Char}
    (stops : Stops isPlain after) : word.LongestBefore after := by
  cases word with
  | identifier => exact longest_identifier (stops_of_not_plain stops)
  | number => exact longest_number (splitNumber_rest [] stops)
  | quoted => exact longest_quoted after
  | mark => exact longest_mark after

/-- What stands behind a character that no word takes can be anything. -/
theorem Word.LongestBefore.beyond {word : Lexis.Word} {text after other : List Char} {ends : Char}
    (longest : word.LongestBefore (text ++ ends :: after)) (notPlain : isPlain ends = false) :
    word.LongestBefore (text ++ ends :: other) := by
  by_cases plain : isPlain word.first = true
  · intro found begins
    have same := (Word.first_eq_of_begins begins).1
    have without : ends ∉ found.written := by
      intro taken
      have plainWord : ∀ character ∈ found.written, isPlain character = true :=
        List.forall_mem_cons.mpr ⟨same ▸ plain, found.tail_isPlain (same ▸ plain)⟩
      rw [plainWord ends taken] at notPlain
      cases notPlain
    have inside : found.written <+: word.written ++ text := by
      rw [← List.append_assoc] at begins
      obtain inside | ⟨more, longer⟩ :=
        List.prefix_or_prefix_of_prefix begins (List.prefix_append _ _)
      · exact inside
      · rw [← longer, List.prefix_append_right_inj] at begins
        cases more with
        | nil => exact ⟨[], by simpa using longer.symm⟩
        | cons next rest =>
          obtain ⟨rfl, -⟩ := List.cons_prefix_cons.mp begins
          exact absurd (by simp [← longer]) without
    refine longest found (inside.trans ?_)
    rw [← List.append_assoc]
    exact List.prefix_append _ _
  · cases word with
    | identifier _ _ begins | number _ _ begins =>
      simp [Word.first, isPlain, continuesIdentifier, begins] at plain
    | quoted => exact longest_quoted _
    | mark => exact longest_mark _

theorem Piece.longest_of_stops {piece : Lexis.Piece} {after other : List Char}
    (longest : piece.LongestBefore after) (stops : Stops isPlain other) :
    piece.LongestBefore other := by
  cases piece with
  | gap gap => trivial
  | word word => exact word.longest_of_stops stops
  | group delimiter inner =>
    refine LongestAll.imp (fun word text isLongest => isLongest.beyond ?_) longest
    exact stops_closing delimiter [] _ _ rfl

end Lexis

/-! ## Tokens alone -/

theorem Lexis.Piece.raw_of_tokens {piece : Lexis.Piece} {start : Position} {token : Token}
    (own : piece.tokens start = [token]) : token.raw = String.ofList piece.written := by
  cases piece with
  | gap gap => simp [Piece.tokens] at own
  | word word =>
    cases own
    rw [written_word]
    exact String.ofList_toList.symm.trans (congrArg String.ofList (word.raw_token _))
  | group delimiter inner =>
    cases own
    rfl

/-- Every token is the one token of its text, put in its place. -/
theorem exists_own_token {pieces : List Lexis.Piece} {start : Position} {after : List Char}
    {token : Token} (longest : LongestAll after pieces) (member : token ∈ tokensAll start pieces) :
    ∃ own, tokenize token.raw = .ok ⟨[own], Position.origin.after token.raw.toList⟩ ∧
      own.relocate token.span.start.shift = token := by
  obtain ⟨left, right, split⟩ := List.append_of_mem member
  obtain ⟨front, piece, back, rfl, -, isToken, -, place⟩ := Lexis.exists_piece_of_token split
  have alone : LongestAll (writtenAll back ++ after) [piece] :=
    ⟨(Lexis.longestAll_append.mp longest).2.1, trivial⟩
  have moved := relocate_pieces token.span.start [piece] []
  rw [Position.after_nil, Position.after_nil, tokensAll, tokensAll, tokensAll, tokensAll,
    List.append_nil, List.append_nil, place, isToken] at moved
  obtain ⟨own, isOwn, ownMoved⟩ := List.map_eq_singleton_iff.mp moved
  have read := tokenize_pieces alone
  rw [writtenAll_cons, writtenAll_nil, List.append_nil, tokensAll, tokensAll, List.append_nil,
    isOwn] at read
  refine ⟨own, ?_, place ▸ ownMoved⟩
  rw [Piece.raw_of_tokens isToken, String.toList_ofList, read]

/-- The tokens of a group are those of its value, put in their place. -/
theorem exists_inner_tokens {inner : List Lexis.Piece} {place : Position} {behind : List Char}
    {delimiter : Delimiter} {raw : String} {children : List Token} {span : Span}
    (longest : LongestAll (delimiter.closing :: behind) inner)
    (own : (Lexis.Piece.group delimiter inner).tokens place =
      [.group delimiter raw children span]) :
    ∃ tokens, tokenize (Token.group delimiter raw children span).value = .ok tokens ∧
      tokens.body.map (Token.relocate (span.start.next delimiter.opening).shift) = children := by
  have value : (Token.group delimiter raw children span).value =
      String.ofList (writtenAll inner) := by
    have isRaw : raw = _ := Piece.raw_of_tokens own
    simp [Token.value, isRaw]
  rw [value]
  cases own
  exact ⟨_, tokenize_pieces longest, relocate_pieces _ inner []⟩

/-! ## Tokens with blanks between them -/

/-- What is read of a token: its sort, its value and its text. -/
def Token.reading (token : Token) : TokenKind × String × String :=
  (token.kind, token.value, token.raw)

theorem Lexis.Piece.reading_tokens (piece : Lexis.Piece) (start place : Position) :
    (piece.tokens start).map Token.reading = (piece.tokens place).map Token.reading := by
  cases piece with
  | gap gap => simp [Piece.tokens]
  | word word =>
    rw [Piece.tokens, Piece.tokens]
    cases word <;> rfl
  | group delimiter inner =>
    rw [Piece.tokens, Piece.tokens]
    rfl

theorem exists_spaced {pieces : List Lexis.Piece} {after : List Char}
    (longest : LongestAll after pieces) (start : Position) :
    ∃ spaced, String.ofList (writtenAll spaced) =
        " ".intercalate ((tokensAll start pieces).map Token.raw) ∧ LongestAll [] spaced ∧
      ∀ place, (tokensAll place spaced).map Token.reading =
        (tokensAll start pieces).map Token.reading := by
  induction pieces generalizing start with
  | nil => exact ⟨[], by simp [tokensAll], trivial, by simp [tokensAll]⟩
  | cons piece rest ih =>
    obtain ⟨spaced, written, isLongest, same⟩ := ih longest.2 (start.after piece.written)
    rw [tokensAll]
    rcases Lexis.tokens_cases piece start with isGap | ⟨token, isToken, -⟩
    · rw [isGap]
      exact ⟨spaced, written, isLongest, same⟩
    · have raw := Lexis.Piece.raw_of_tokens isToken
      have own (place : Position) := piece.reading_tokens place start
      cases others : tokensAll (start.after piece.written) rest with
      | nil =>
        refine ⟨[piece], by simp [isToken, raw], ⟨Piece.longest_of_stops longest.1 ?_, trivial⟩, ?_⟩
        · rintro _ _ ⟨⟩
        · intro place
          simpa [tokensAll] using own place
      | cons second further =>
        rw [others] at written same
        refine ⟨piece :: .gap (.blank ' ' rfl) :: spaced, ?_,
          ⟨Piece.longest_of_stops longest.1 ?_, trivial, isLongest⟩, ?_⟩
        · rw [isToken, List.singleton_append, List.map_cons, List.map_cons,
            String.intercalate_cons_cons, ← List.map_cons, ← written, raw]
          simp [Gap.written, String.append_assoc]
        · rintro _ _ ⟨⟩
          rfl
        · intro place
          rw [tokensAll, tokensAll, Piece.tokens, List.nil_append, List.map_append,
            List.map_append, own, same]

/-- Tokens are self-contained. The text of a token, at any depth, read alone is that one token and
the end of the input. The text between the brackets of a group is the tokens of the group. The texts
of the outermost tokens, with one blank between neighbours, are tokens of the same sorts, values and
texts. Places are counted from the beginning of the text that is read. -/
theorem tokens_are_self_contained {source : String} {tokens : Tokens}
    (read : tokenize source = .ok tokens) :
    (∀ start stop level, tokens.Level start stop level → ∀ token ∈ level,
      token.kind ≠ .endOfInput → ∃ own : Token,
        tokenize token.raw = .ok ⟨[own], Position.origin.after token.raw.toList⟩ ∧
        own.relocate token.span.start.shift = token) ∧
    (∀ start stop level, tokens.Level start stop level → ∀ delimiter raw children span,
      .group delimiter raw children span ∈ level → ∃ inner : Tokens,
        tokenize (Token.group delimiter raw children span).value = .ok inner ∧
        inner.body.map (Token.relocate (span.start.next delimiter.opening).shift) = children) ∧
    ∃ spaced : Tokens, tokenize (" ".intercalate (tokens.body.map Token.raw)) = .ok spaced ∧
      spaced.body.map Token.reading = tokens.body.map Token.reading := by
  obtain ⟨layout, longest, -, rfl⟩ := tokenize_eq_ok.mp read
  refine ⟨?_, ?_, ?_⟩
  · intro start stop level found token member notEnd
    obtain ⟨_, pieces, _, ending, -, allLongest, -, rfl, -, ends⟩ := found.exists_pieces
    rcases List.mem_append.mp member with inPieces | last
    · exact exists_own_token (allLongest longest) inPieces
    · exact absurd (ends token last) notEnd
  · intro start stop level found delimiter raw children span member
    obtain ⟨_, _, _, innerLongest, own⟩ := found.exists_group longest member
    exact exists_inner_tokens innerLongest own
  · obtain ⟨spaced, written, isLongest, same⟩ := exists_spaced longest .origin
    have again := tokenize_pieces isLongest
    rw [written] at again
    exact ⟨_, again, same .origin⟩

/-- A number before a point that does not belong to it, a comment before a closing bracket, and a
quoted text of two lines. -/
def crowdedText : String := "(1.# (\n)['a\nb'2.5]"

theorem crowdedText_is_self_contained :
    ∃ tokens, tokenize crowdedText = .ok tokens ∧ tokens.flatten.body.length = 8 ∧
      (∀ start stop level, tokens.Level start stop level → ∀ token ∈ level,
        token.kind ≠ .endOfInput → ∃ own : Token,
          tokenize token.raw = .ok ⟨[own], Position.origin.after token.raw.toList⟩ ∧
          own.relocate token.span.start.shift = token) ∧
      ∃ spaced : Tokens, tokenize (" ".intercalate (tokens.body.map Token.raw)) = .ok spaced ∧
        spaced.body.map Token.reading = tokens.body.map Token.reading := by
  have reads : yields (fun tokens => tokens.flatten.body.length == 8) (tokenize crowdedText) =
      true := by
    decide +kernel
  obtain ⟨tokens, read, counted⟩ := exists_of_yields reads
  obtain ⟨alone, -, spaced⟩ := tokens_are_self_contained read
  exact ⟨tokens, read, by simpa using counted, alone, spaced⟩

end TypedMarkup
