import TypedMarkup.Proofs.Token.Tokenizing

/-!
Contract: tokens lose nothing of their text.

Owns: `Lossless`, which says of tokens between two places of a text that they stand there in order,
that each is the slice of its span, and that only gaps are left between them, and the theorem that
this holds of every level of nested tokens and of the flat ones.

Tokens are laid in front of others piece by piece, from the end of a text to its beginning, so a gap
is always put in front of the gap behind it.
-/

namespace TypedMarkup

open Lexis

/-! ## What it means to lose nothing -/

/-- Blanks and comments stand between two places of a text, and nothing else. A comment without its
line feed reaches the end of the text. -/
def GapBetween (source : List Char) (start stop : Nat) : Prop :=
  ∃ gaps : List Gap,
    sliceOf source start stop = gaps.flatMap Gap.written ∨
      stop = source.length ∧
        ∃ remark : Remark, sliceOf source start stop = gaps.flatMap Gap.written ++ remark.written

/-- The places that tokens leave between two places: before the first, between neighbours, and
behind the last. -/
def placesBetween (start stop : Nat) : List Token → List (Nat × Nat)
  | [] => [(start, stop)]
  | token :: rest =>
    (start, token.span.start.offset) :: placesBetween token.span.stop.offset stop rest

/-- What stands at the left places of a text and the tokens as written, in turn. -/
def interleaved (source : List Char) (start stop : Nat) : List Token → List Char
  | [] => sliceOf source start stop
  | token :: rest =>
    sliceOf source start token.span.start.offset ++ token.raw.toList ++
      interleaved source token.span.stop.offset stop rest

/-- A token stands in a text where its span says. -/
structure Token.PlacedIn (source : List Char) (token : Token) : Prop where
  forward : token.span.start.offset ≤ token.span.stop.offset
  exact : token.raw.toList = sliceOf source token.span.start.offset token.span.stop.offset
  start : token.span.start.Marks source
  stop : token.span.stop.Marks source
  brackets : ∀ delimiter raw children span, token = .group delimiter raw children span →
    raw.toList = delimiter.opening ::
      (sliceOf source (span.start.offset + 1) (span.stop.offset - 1) ++ [delimiter.closing])

/-- Tokens lose nothing of a text between two places. -/
structure Lossless (source : List Char) (start stop : Nat) (tokens : List Token) : Prop where
  forward : start ≤ stop
  inside : ∀ token ∈ tokens, start ≤ token.span.start.offset ∧ token.span.stop.offset ≤ stop
  ordered : tokens.Pairwise fun first second => first.span.stop.offset ≤ second.span.start.offset
  placed : ∀ token ∈ tokens, token.PlacedIn source
  gaps : ∀ place ∈ placesBetween start stop tokens, GapBetween source place.1 place.2
  whole : interleaved source start stop tokens = sliceOf source start stop

/-- A level of nested tokens and the places between which it stands: the whole text, or the inside
of a group. -/
inductive Tokens.Level (tokens : Tokens) : Nat → Nat → List Token → Prop where
  | whole : Level tokens 0 tokens.stop.offset tokens.toList
  | inside {start stop : Nat} {level children : List Token} {delimiter : Delimiter} {raw : String}
      {span : Span} (outer : Level tokens start stop level)
      (member : .group delimiter raw children span ∈ level) :
      Level tokens (span.start.offset + 1) (span.stop.offset - 1) children

/-! ## Laying tokens in front of others -/

theorem sliceOf_self (source : List Char) (place : Nat) : sliceOf source place place = [] := by
  simp [sliceOf]

theorem sliceOf_whole (source : List Char) : sliceOf source 0 source.length = source := by
  simp [sliceOf]

theorem sliceOf_append {source : List Char} {start middle stop : Nat} (first : start ≤ middle)
    (second : middle ≤ stop) :
    sliceOf source start stop = sliceOf source start middle ++ sliceOf source middle stop := by
  unfold sliceOf
  have total : stop - start = (middle - start) + (stop - middle) := by omega
  have further : start + (middle - start) = middle := by omega
  rw [total, List.take_add, List.drop_drop, further]

theorem gapBetween_self (source : List Char) (place : Nat) : GapBetween source place place :=
  ⟨[], .inl (sliceOf_self source place)⟩

theorem GapBetween.behind {source : List Char} {start middle stop : Nat} {gap : Gap}
    (further : GapBetween source middle stop) (forward : start ≤ middle) (stops : middle ≤ stop)
    (written : sliceOf source start middle = gap.written) : GapBetween source start stop := by
  obtain ⟨gaps, onlyGaps | ⟨atEnd, remark, ending⟩⟩ := further
  · refine ⟨gap :: gaps, .inl ?_⟩
    rw [sliceOf_append forward stops, written, onlyGaps, List.flatMap_cons]
  · refine ⟨gap :: gaps, .inr ⟨atEnd, remark, ?_⟩⟩
    rw [sliceOf_append forward stops, written, ending, List.flatMap_cons, List.append_assoc]

namespace Lossless

variable {source : List Char} {start middle stop : Nat} {token : Token} {tokens : List Token}

theorem nil (place : Nat) : Lossless source place place [] := by
  refine ⟨Nat.le_refl place, by simp, .nil, by simp, ?_, rfl⟩
  intro left member
  cases List.mem_singleton.mp member
  exact gapBetween_self source place

/-- A token directly in front of others. -/
theorem cons (placed : token.PlacedIn source)
    (further : Lossless source token.span.stop.offset stop tokens) :
    Lossless source token.span.start.offset stop (token :: tokens) := by
  have forward := placed.forward
  have stops := further.forward
  refine ⟨by omega, ?_, ?_, ?_, ?_, ?_⟩
  · intro other member
    rcases List.mem_cons.mp member with rfl | member
    · exact ⟨Nat.le_refl _, stops⟩
    · have inside := further.inside other member
      omega
  · refine List.pairwise_cons.mpr ⟨?_, further.ordered⟩
    intro other member
    exact (further.inside other member).1
  · exact List.forall_mem_cons.mpr ⟨placed, further.placed⟩
  · exact List.forall_mem_cons.mpr ⟨gapBetween_self source _, further.gaps⟩
  · rw [interleaved, further.whole, sliceOf_self, List.nil_append, placed.exact,
      ← sliceOf_append forward stops]

/-- More room in front of tokens, where it makes the first gap longer. -/
theorem widen (further : Lossless source middle stop tokens) (forward : start ≤ middle)
    (longer : ∀ place, middle ≤ place → place ≤ stop → GapBetween source middle place →
      GapBetween source start place) :
    Lossless source start stop tokens := by
  have stops := further.forward
  refine ⟨by omega, ?_, further.ordered, further.placed, ?_, ?_⟩
  · intro token member
    have inside := further.inside token member
    omega
  · have gaps := further.gaps
    cases tokens with
    | nil =>
      intro place member
      cases List.mem_singleton.mp member
      exact longer stop stops (Nat.le_refl stop) (gaps _ (List.mem_singleton.mpr rfl))
    | cons token rest =>
      obtain ⟨begins, ends⟩ := further.inside token (List.mem_cons_self ..)
      have tokenForward := (further.placed token (List.mem_cons_self ..)).forward
      obtain ⟨first, others⟩ := List.forall_mem_cons.mp gaps
      exact List.forall_mem_cons.mpr ⟨longer _ begins (by omega) first, others⟩
  · have whole := further.whole
    cases tokens with
    | nil => rfl
    | cons token rest =>
      obtain ⟨begins, -⟩ := further.inside token (List.mem_cons_self ..)
      rw [interleaved] at whole ⊢
      rw [sliceOf_append forward stops, ← whole, sliceOf_append forward begins]
      simp only [List.append_assoc]

end Lossless

/-! ## Laying pieces into a text -/

section

variable {source before after written : List Char} {token : Token}

theorem sliceOf_written (text : source = before ++ (written ++ after)) :
    sliceOf source before.length (before.length + written.length) = written := by
  rw [text]
  exact sliceOf_parts before written after rfl rfl

section

variable (text : source = before ++ (written ++ after))
  (place : token.span = ⟨Position.origin.after before, Position.origin.after (before ++ written)⟩)
  (raw : token.raw.toList = written)
  (brackets : ∀ delimiter raw children span, token = .group delimiter raw children span →
    ∃ inner, written = delimiter.opening :: (inner ++ [delimiter.closing]))

include text place raw brackets

/-- A token with the text and the span of a part of the source stands there. -/
theorem Token.placedIn_of_written : token.PlacedIn source := by
  have stopText : source = (before ++ written) ++ after := by rw [text, List.append_assoc]
  have startMarks : (Position.origin.after before).Marks source := by
    rw [text]
    exact Position.marks_after before _
  have stopMarks : (Position.origin.after (before ++ written)).Marks source := by
    rw [stopText]
    exact Position.marks_after (before ++ written) _
  refine ⟨?_, ?_, ?_, ?_, ?_⟩
  · rw [place, Position.origin_after_offset, Position.origin_after_offset, List.length_append]
    omega
  · rw [place, raw, Position.origin_after_offset, Position.origin_after_offset,
      List.length_append, sliceOf_written text]
  · rw [place]
    exact startMarks
  · rw [place]
    exact stopMarks
  · rintro delimiter groupRaw children span rfl
    obtain ⟨inner, enclosed⟩ := brackets delimiter groupRaw children span rfl
    have innerText : source = (before ++ [delimiter.opening]) ++
        (inner ++ delimiter.closing :: after) := by
      simp [text, enclosed]
    have innerSlice := sliceOf_written innerText
    have innerStop : before.length + written.length - 1 =
        (before ++ [delimiter.opening]).length + inner.length := by
      simp [enclosed]
      omega
    change groupRaw.toList = written at raw
    change span = _ at place
    rw [raw, place, Position.origin_after_offset, Position.origin_after_offset,
      List.length_append, innerStop]
    rw [List.length_append, List.length_singleton] at innerSlice ⊢
    rw [innerSlice, enclosed]

/-- Such a token in front of others. -/
theorem lossless_token {stop : Nat} {more : List Token}
    (further : Lossless source (before ++ written).length stop more) :
    Lossless source before.length stop (token :: more) := by
  have placed := Token.placedIn_of_written text place raw brackets
  have begins : token.span.start.offset = before.length := by
    rw [place, Position.origin_after_offset]
  have ends : token.span.stop.offset = (before ++ written).length := by
    rw [place, Position.origin_after_offset]
  rw [← ends] at further
  rw [← begins]
  exact further.cons placed

end

end

theorem Lexis.Word.raw_token (word : Lexis.Word) (span : Span) :
    (word.token span).raw.toList = word.written := by
  cases word <;> simp [Word.token, Token.raw, Word.written, Word.first, Word.tail]

theorem Lexis.Word.span_token (word : Lexis.Word) (span : Span) :
    (word.token span).span = span := by
  cases word <;> rfl

theorem Lexis.Word.token_ne_group (word : Lexis.Word) {span : Span} {delimiter : Delimiter}
    {raw : String} {children : List Token} {place : Span} :
    word.token span ≠ .group delimiter raw children place := by
  cases word <;> simp [Word.token]

section

variable {source before after : List Char} {stop : Nat} {more : List Token}

theorem lossless_gap (gap : Gap) (text : source = before ++ (gap.written ++ after))
    (further : Lossless source (before ++ gap.written).length stop more) :
    Lossless source before.length stop more := by
  rw [List.length_append] at further
  have forward : before.length ≤ before.length + gap.written.length := by omega
  apply further.widen forward
  intro place stops _ behind
  exact behind.behind forward stops (sliceOf_written text)

theorem lossless_word (word : Lexis.Word) (text : source = before ++ (word.written ++ after))
    (further : Lossless source (before ++ word.written).length stop more) :
    Lossless source before.length stop
      (word.token ⟨Position.origin.after before,
        (Position.origin.after before).after word.written⟩ :: more) := by
  apply lossless_token text
  · rw [word.span_token, Position.after_append]
  · exact word.raw_token _
  · intro delimiter raw children span same
    exact absurd same word.token_ne_group
  · exact further

/-- A piece in front of tokens that lose nothing: a group is one token. -/
theorem lossless_piece (piece : Lexis.Piece) (text : source = before ++ (piece.written ++ after))
    (further : Lossless source (before ++ piece.written).length stop more) :
    Lossless source before.length stop (piece.tokens (Position.origin.after before) ++ more) := by
  cases piece with
  | gap gap =>
    rw [written_gap] at text further
    rw [Piece.tokens, List.nil_append]
    exact lossless_gap gap text further
  | word word =>
    rw [written_word] at text further
    rw [Piece.tokens, List.singleton_append]
    exact lossless_word word text further
  | group delimiter inner =>
    rw [Piece.tokens, List.singleton_append]
    apply lossless_token text
    · rw [Token.span, Position.after_append]
    · rw [Token.raw, String.toList_ofList]
    · rintro _ _ _ _ ⟨⟩
      exact ⟨writtenAll inner, written_group delimiter inner⟩
    · exact further

theorem lossless_pieces (pieces : List Lexis.Piece) (before after : List Char)
    (text : source = before ++ (writtenAll pieces ++ after))
    (further : Lossless source (before ++ writtenAll pieces).length stop more) :
    Lossless source before.length stop
      (tokensAll (Position.origin.after before) pieces ++ more) := by
  induction pieces generalizing before with
  | nil =>
    rw [writtenAll_nil, List.append_nil] at further
    rw [tokensAll, List.nil_append]
    exact further
  | cons piece rest ih =>
    have pieceText : source = before ++ (piece.written ++ (writtenAll rest ++ after)) := by
      simp [text]
    have restText : source = (before ++ piece.written) ++ (writtenAll rest ++ after) := by
      simp [text]
    rw [writtenAll_cons, ← List.append_assoc] at further
    have restLossless := ih _ restText further
    rw [tokensAll, List.append_assoc, ← Position.after_append]
    exact lossless_piece piece pieceText restLossless

end

/-- Pieces in front of tokens that lose nothing: a group is its brackets and what is inside. -/
theorem lossless_flat_pieces {source : List Char} (pieces : List Lexis.Piece)
    (before after : List Char) (text : source = before ++ (writtenAll pieces ++ after))
    {stop : Nat} {more : List Token}
    (further : Lossless source (before ++ writtenAll pieces).length stop more) :
    Lossless source before.length stop
      (flattenAll (tokensAll (Position.origin.after before) pieces) ++ more) := by
  induction pieces using pieces_induction generalizing before after more with
  | nil => simpa [tokensAll] using further
  | gap gap rest ih =>
    have gapText : source = before ++ (gap.written ++ (writtenAll rest ++ after)) := by
      simp [text]
    rw [writtenAll_cons, written_gap, ← List.append_assoc] at further
    rw [flatten_gap, ← Position.after_append]
    exact lossless_gap gap gapText (ih _ after (by simp [text]) further)
  | word word rest ih =>
    have wordText : source = before ++ (word.written ++ (writtenAll rest ++ after)) := by
      simp [text]
    rw [writtenAll_cons, written_word, ← List.append_assoc] at further
    rw [flatten_word, List.cons_append]
    apply lossless_word word wordText
    rw [← Position.after_append]
    exact ih _ after (by simp [text]) further
  | group delimiter inner rest inside ih =>
    have openingText : source = before ++ ([delimiter.opening] ++
        (writtenAll inner ++ delimiter.closing :: (writtenAll rest ++ after))) := by
      simp [text]
    have closingText : source = (before ++ [delimiter.opening] ++ writtenAll inner) ++
        ([delimiter.closing] ++ (writtenAll rest ++ after)) := by
      simp [text]
    have restLossless := ih (before ++ (Lexis.Piece.group delimiter inner).written) after
      (by simp [text]) (by simpa using further)
    rw [flatten_group, List.cons_append, List.append_assoc, List.cons_append]
    apply lossless_token openingText
    · rw [Token.span, Position.after_append]
    · exact String.toList_singleton _
    · rintro _ _ _ _ ⟨⟩
    rw [← Position.after_append]
    apply inside _ _ (by simpa using openingText)
    apply lossless_token closingText
    · simp only [Token.span, written_group, Position.after_append, Position.after_cons,
        Position.after_nil]
    · exact String.toList_singleton _
    · rintro _ _ _ _ ⟨⟩
    simpa using restLossless

/-! ## Cutting a text -/

namespace Lexis

theorem longestAll_append {after : List Char} {first second : List Lexis.Piece} :
    LongestAll after (first ++ second) ↔
      LongestAll (writtenAll second ++ after) first ∧ LongestAll after second := by
  induction first with
  | nil => simp [LongestAll]
  | cons piece rest ih =>
    rw [List.cons_append, LongestAll, LongestAll, ih, writtenAll_append,
      List.append_assoc, and_assoc]

theorem tokensAll_append (start : Position) (first second : List Lexis.Piece) :
    tokensAll start (first ++ second) =
      tokensAll start first ++ tokensAll (start.after (writtenAll first)) second := by
  induction first generalizing start with
  | nil => simp [tokensAll]
  | cons piece rest ih =>
    rw [List.cons_append, tokensAll, tokensAll, ih, List.append_assoc,
      writtenAll_cons, Position.after_append]

theorem tokens_cases (piece : Lexis.Piece) (start : Position) :
    piece.tokens start = [] ∨
      ∃ token, piece.tokens start = [token] ∧ token.span = ⟨start, start.after piece.written⟩ := by
  cases piece with
  | gap gap => exact .inl (by rw [Piece.tokens])
  | word word =>
    refine .inr ⟨_, by rw [Piece.tokens], ?_⟩
    rw [word.span_token, written_word]
  | group delimiter inner => exact .inr ⟨_, by rw [Piece.tokens], rfl⟩

/-- Every token of a text has a piece of its own. -/
theorem exists_piece_of_token {start : Position} {pieces : List Lexis.Piece} {token : Token}
    {left right : List Token} (split : tokensAll start pieces = left ++ token :: right) :
    ∃ front piece back, pieces = front ++ piece :: back ∧ tokensAll start front = left ∧
      piece.tokens (start.after (writtenAll front)) = [token] ∧
      tokensAll (start.after (writtenAll front ++ piece.written)) back = right ∧
      token.span = ⟨start.after (writtenAll front),
        start.after (writtenAll front ++ piece.written)⟩ := by
  induction pieces generalizing start left with
  | nil => simp [tokensAll] at split
  | cons piece rest ih =>
    rw [tokensAll] at split
    rcases tokens_cases piece start with isGap | ⟨own, isOwn, place⟩
    · rw [isGap, List.nil_append] at split
      obtain ⟨front, found, back, rfl, before, here, behind, place⟩ :=
        ih split
      refine ⟨piece :: front, found, back, rfl, ?_, ?_, ?_, ?_⟩
      · rw [tokensAll, isGap, before, List.nil_append]
      · simpa using here
      · simpa using behind
      · simpa using place
    · rw [isOwn] at split
      cases left with
      | nil =>
        obtain ⟨rfl, behind⟩ := List.cons.inj split
        exact ⟨[], piece, rest, rfl, by rw [tokensAll], isOwn, behind, place⟩
      | cons first more =>
        obtain ⟨rfl, further⟩ := List.cons.inj split
        obtain ⟨front, found, back, rfl, before, here, behind, place⟩ :=
          ih further
        refine ⟨piece :: front, found, back, rfl, ?_, ?_, ?_, ?_⟩
        · rw [tokensAll, isOwn, before]
          rfl
        · simpa using here
        · simpa using behind
        · simpa using place

end Lexis

/-! ## Whole texts -/

section

variable {delimiter : Delimiter} {children : List Token} {span : Span} {raw : String}
  {start stop : Nat} {tokens : List Token} {layout : Layout}

/-- The end of the input, with a last comment before it. -/
theorem lossless_ending (layout : Layout) :
    Lossless layout.written (writtenAll layout.pieces).length layout.written.length
      [.endOfInput (Position.origin.after layout.written)] := by
  have text : layout.written = layout.written ++ ([] ++ []) := by simp
  have atEnd : Lossless layout.written layout.written.length layout.written.length
      [.endOfInput (Position.origin.after layout.written)] := by
    apply lossless_token text
    · rw [Token.span, List.append_nil]
    · rfl
    · rintro _ _ _ _ ⟨⟩
    · rw [List.append_nil]
      exact .nil _
  have forward : (writtenAll layout.pieces).length ≤ layout.written.length := by
    simp [Layout.written]
  apply atEnd.widen forward
  intro place begins stops _
  have same : place = layout.written.length := by omega
  have ending : sliceOf layout.written (writtenAll layout.pieces).length place =
      layout.ending := by
    have endingText : layout.written =
        writtenAll layout.pieces ++ (layout.ending ++ []) := by
      simp [Layout.written]
    rw [same, ← sliceOf_written endingText, ← List.length_append]
    rfl
  obtain ⟨pieces, remark⟩ := layout
  refine ⟨[], ?_⟩
  rw [ending]
  cases remark with
  | none => exact .inl rfl
  | some remark => exact .inr ⟨same, remark, rfl⟩

theorem lossless_layout (layout : Layout) :
    Lossless layout.written 0 layout.written.length layout.tokens.toList :=
  lossless_pieces layout.pieces [] layout.ending rfl (lossless_ending layout)

theorem lossless_flat_layout (layout : Layout) :
    Lossless layout.written 0 layout.written.length layout.tokens.flatten.toList :=
  lossless_flat_pieces layout.pieces [] layout.ending rfl (lossless_ending layout)

theorem exists_group_of_mem {pieces : List Lexis.Piece} {start : Position}
    (member : .group delimiter raw children span ∈ tokensAll start pieces) :
    ∃ front inner back, pieces = front ++ .group delimiter inner :: back ∧
      (Lexis.Piece.group delimiter inner).tokens (start.after (writtenAll front)) =
        [.group delimiter raw children span] := by
  obtain ⟨left, right, split⟩ := List.append_of_mem member
  obtain ⟨front, piece, back, rfl, -, own, -⟩ := Lexis.exists_piece_of_token split
  cases piece with
  | gap gap => simp [Piece.tokens] at own
  | word word =>
    rw [Piece.tokens] at own
    exact absurd (List.cons.inj own).1 word.token_ne_group
  | group found inner =>
    have same := own
    cases same
    exact ⟨front, inner, back, rfl, own⟩

/-- Every level of tokens comes from pieces of the text, and the end of the input from what is left
behind them. -/
theorem Tokens.Level.exists_pieces (level : layout.tokens.Level start stop tokens) :
    ∃ before pieces after ending, layout.written = before ++ (writtenAll pieces ++ after) ∧
      (layout.Longest → LongestAll after pieces) ∧ start = before.length ∧
      tokens = tokensAll (Position.origin.after before) pieces ++ ending ∧
      Lossless layout.written (before ++ writtenAll pieces).length stop ending ∧
      ∀ token ∈ ending, token.kind = .endOfInput := by
  induction level with
  | whole =>
    refine ⟨[], layout.pieces, layout.ending, [.endOfInput layout.tokens.stop], rfl, id, rfl, rfl,
      ?_, by simp [Token.kind]⟩
    have stops : layout.tokens.stop.offset = layout.written.length :=
      Position.origin_after_offset _
    rw [stops]
    exact lossless_ending layout
  | @inside _ _ _ _ delimiter _ _ outer member ih =>
    obtain ⟨before, pieces, after, ending, text, longest, -, rfl, -, ends⟩ := ih
    rcases List.mem_append.mp member with found | last
    · obtain ⟨front, inner, back, rfl, own⟩ := exists_group_of_mem found
      cases own
      have begins : ((Position.origin.after before).after (writtenAll front)).offset + 1 =
          (before ++ writtenAll front ++ [delimiter.opening]).length := by
        simp [Position.origin]
        omega
      have stops : (((Position.origin.after before).after (writtenAll front)).after
            (Lexis.Piece.group delimiter inner).written).offset - 1 =
          (before ++ writtenAll front ++ [delimiter.opening] ++ writtenAll inner).length := by
        simp [Position.origin]
        omega
      refine ⟨before ++ writtenAll front ++ [delimiter.opening], inner,
        delimiter.closing :: (writtenAll back ++ after), [], by simp [text], fun whole => ?_,
        begins, by simp, ?_, List.forall_mem_nil _⟩
      · exact (Lexis.longestAll_append.mp (longest whole)).2.1
      · rw [stops]
        exact .nil _
    · cases ends _ last

/-- The groups of a text have the tokens of pieces whose words are the longest in their places. -/
theorem Tokens.Level.exists_group (longest : layout.Longest) {level : List Token}
    (found : layout.tokens.Level start stop level)
    (member : .group delimiter raw children span ∈ level) :
    ∃ inner place behind, LongestAll (delimiter.closing :: behind) inner ∧
      (Lexis.Piece.group delimiter inner).tokens place = [.group delimiter raw children span] := by
  obtain ⟨before, pieces, after, ending, -, allLongest, -, rfl, -, ends⟩ := found.exists_pieces
  rcases List.mem_append.mp member with inPieces | last
  · obtain ⟨front, inner, back, rfl, own⟩ := exists_group_of_mem inPieces
    exact ⟨inner, _, _, (Lexis.longestAll_append.mp (allLongest longest)).2.1, own⟩
  · cases ends _ last

theorem Tokens.Level.lossless (level : layout.tokens.Level start stop tokens) :
    Lossless layout.written start stop tokens := by
  obtain ⟨before, pieces, after, ending, text, -, rfl, rfl, further, -⟩ := level.exists_pieces
  exact lossless_pieces pieces before after text further

end

/-- No level of the tokens of a text loses anything of it, and neither do the flat tokens: they
stand in order, each is what the text has at its span, and blanks and comments are all that is
between them, so that the text comes out again. Every position counts lines and columns as the text
has them, and the last token is the end of the input, behind the last character. -/
theorem tokens_lose_nothing {source : String} {tokens : Tokens}
    (read : tokenize source = .ok tokens) :
    (∀ start stop level, tokens.Level start stop level →
      Lossless source.toList start stop level) ∧
    Lossless source.toList 0 source.toList.length tokens.toList ∧
    Lossless source.toList 0 source.toList.length tokens.flatten.toList ∧
    interleaved source.toList 0 source.toList.length tokens.toList = source.toList ∧
    interleaved source.toList 0 source.toList.length tokens.flatten.toList = source.toList ∧
    ∃ last : Token, tokens.toList.getLast? = some last ∧
      tokens.flatten.toList.getLast? = some last ∧ last.kind = .endOfInput ∧ last.raw = "" ∧
      last.span.start.offset = source.toList.length ∧
      last.span.stop.offset = source.toList.length := by
  obtain ⟨layout, -, written, rfl⟩ := tokenize_eq_ok.mp read
  have nested := lossless_layout layout
  have flat := lossless_flat_layout layout
  rw [written] at nested flat
  have stops : layout.tokens.stop.offset = source.toList.length := by
    rw [Layout.tokens, written, Position.origin_after_offset]
  refine ⟨?_, nested, flat, ?_, ?_, .endOfInput layout.tokens.stop, ?_, ?_, rfl, rfl, stops, stops⟩
  · intro start stop level found
    rw [← written]
    exact found.lossless
  · rw [nested.whole, sliceOf_whole]
  · rw [flat.whole, sliceOf_whole]
  · exact List.getLast?_concat
  · exact List.getLast?_concat

/-- Groups in a group, with a comment among them, a quoted text of two lines, and a comment that the
end of the text ends. -/
def nestedText : String := "a [ # note\n \x7b 'b\nc' \x7d ( ) ] 1.5 # last"

theorem nestedText_is_recovered :
    ∃ tokens, tokenize nestedText = .ok tokens ∧ tokens.flatten.body.length = 9 ∧
      (∀ start stop level, tokens.Level start stop level →
        Lossless nestedText.toList start stop level) ∧
      interleaved nestedText.toList 0 nestedText.toList.length tokens.flatten.toList =
        nestedText.toList := by
  have reads : yields (fun tokens => tokens.flatten.body.length == 9) (tokenize nestedText) =
      true := by
    decide +kernel
  obtain ⟨tokens, read, counted⟩ := exists_of_yields reads
  obtain ⟨levels, -, -, -, flat, -⟩ := tokens_lose_nothing read
  exact ⟨tokens, read, by simpa using counted, levels, flat⟩

end TypedMarkup
