import TypedMarkup.Proofs.Token.LongestMatch
import TypedMarkup.Token.Nesting

/-!
Contract: tokenizing accepts exactly the texts that have a layout.

Owns: that the pieces of a layout of longest words are scanned one by one and nested again, that a
text which is tokenized has a layout, and the theorem on both.

Does not own: the faults of other texts.
-/

namespace TypedMarkup

open Lexis

/-! ## Gaps -/

namespace Scan

theorem skipGap_remark (position : Position) {body : List Char} (oneLine : '\n' ∉ body)
    (rest : List Char) :
    skipGap true position (body ++ rest) = skipGap true (position.after body) rest := by
  induction body generalizing position with
  | nil => rfl
  | cons character more ih =>
    simp only [List.mem_cons, not_or] at oneLine
    have goesOn : (character != '\n') = true := by simpa using Ne.symm oneLine.1
    rw [List.cons_append, skipGap, if_pos rfl, goesOn, ih _ oneLine.2]
    rfl

theorem skipGap_gap (gap : Gap) (position : Position) (rest : List Char) :
    skipGap false position (gap.written ++ rest) =
      skipGap false (position.after gap.written) rest := by
  cases gap with
  | blank character legal =>
    rw [Gap.written, List.singleton_append, skipGap, if_neg (by simp), if_pos legal]
    rfl
  | comment remark =>
    have text : (Gap.comment remark).written ++ rest = '#' :: (remark.body ++ '\n' :: rest) := by
      simp [Gap.written, Remark.written]
    rw [text, skipGap, if_neg (by simp), if_neg (by decide), if_pos (by decide),
      skipGap_remark _ remark.oneLine]
    simp [skipGap, Gap.written, Remark.written]

theorem skipGap_ending (layout : Layout) (position : Position) :
    skipGap false position layout.ending = (position.after layout.ending, []) := by
  obtain ⟨pieces, remark⟩ := layout
  cases remark with
  | none => rfl
  | some remark =>
    have body := skipGap_remark (position.next '#') remark.oneLine []
    rw [List.append_nil] at body
    have text : (Layout.mk pieces (some remark)).ending = '#' :: remark.body := rfl
    rw [text, skipGap, if_neg (by simp), if_neg (by decide), if_pos (by decide), body]
    rfl

theorem skipGap_stops {first : Char} (notGap : isGap first = false) (notRemark : first ≠ '#')
    (position : Position) (rest : List Char) :
    skipGap false position (first :: rest) = (position, first :: rest) := by
  rw [skipGap, if_neg (by simp), if_neg (by simp [notGap]), if_neg (by simpa using notRemark)]

end Scan

/-- A text has a first line, which a line feed ends or the text itself. -/
theorem exists_line (text : List Char) :
    ∃ body, '\n' ∉ body ∧ (text = body ∨ ∃ more, text = body ++ '\n' :: more) := by
  induction text with
  | nil => exact ⟨[], by simp, .inl rfl⟩
  | cons character rest ih =>
    by_cases isFeed : character = '\n'
    · exact ⟨[], by simp, .inr ⟨rest, by rw [isFeed]; rfl⟩⟩
    · obtain ⟨body, oneLine, split⟩ := ih
      refine ⟨character :: body, by simp [Ne.symm isFeed, oneLine], ?_⟩
      simpa using split

/-- A text is gaps up to its end, or up to a character that begins something else. -/
theorem exists_gaps (text : List Char) :
    ∃ gaps : List Gap,
      (∃ layout : Layout, text = gaps.flatMap Gap.written ++ layout.ending) ∨
      ∃ first rest, text = gaps.flatMap Gap.written ++ first :: rest ∧ isGap first = false ∧
        first ≠ '#' := by
  match text with
  | [] => exact ⟨[], .inl ⟨⟨[], none⟩, rfl⟩⟩
  | first :: rest =>
    by_cases isBlank : isGap first = true
    · obtain ⟨gaps, decomposed⟩ := exists_gaps rest
      refine ⟨.blank first isBlank :: gaps, ?_⟩
      simpa [Gap.written] using decomposed
    · by_cases isRemark : first = '#'
      · subst isRemark
        obtain ⟨body, oneLine, split⟩ := exists_line rest
        rcases split with rfl | ⟨more, rfl⟩
        · exact ⟨[], .inl ⟨⟨[], some ⟨rest, oneLine⟩⟩, rfl⟩⟩
        · obtain ⟨gaps, decomposed⟩ := exists_gaps more
          refine ⟨.comment ⟨body, oneLine⟩ :: gaps, ?_⟩
          simpa [Gap.written, Remark.written] using decomposed
      · exact ⟨[], .inr ⟨first, rest, rfl, by simpa using isBlank, isRemark⟩⟩
termination_by text.length

/-! ## Scanning -/

section

variable {position start : Position} {text : List Char}

theorem scanFrom_end (skipped : Scan.skipGap false position text = (start, [])) :
    scanFrom position text = ⟨[], start, none⟩ := by
  rw [scanFrom]
  split
  · next found =>
    rw [skipped] at found
    cases found
    rfl
  · next found =>
    rw [skipped] at found
    cases found

theorem scanFrom_step {first : Char} {rest : List Char}
    (skipped : Scan.skipGap false position text = (start, first :: rest)) :
    scanFrom position text =
      match Scan.lexeme first rest with
      | .error fault => ⟨[], start, some ⟨fault.cause, start.after fault.before⟩⟩
      | .ok found =>
        let more := scanFrom (start.after found.written) found.rest
        { more with tokens := found.token start :: more.tokens } := by
  rw [scanFrom]
  split
  · next found =>
    rw [skipped] at found
    cases found
  · next found =>
    rw [skipped] at found
    cases found
    split
    · next failed => simp only [failed]
    · next read => simp only [read]

end

theorem scanFrom_gap (gap : Gap) (position : Position) (rest : List Char) :
    scanFrom position (gap.written ++ rest) = scanFrom (position.after gap.written) rest := by
  have same := Scan.skipGap_gap gap position rest
  obtain ⟨start, left, skipped⟩ : ∃ start left,
      Scan.skipGap false (position.after gap.written) rest = (start, left) := ⟨_, _, rfl⟩
  rw [skipped] at same
  cases left with
  | nil => rw [scanFrom_end same, scanFrom_end skipped]
  | cons first more => rw [scanFrom_step same, scanFrom_step skipped]

theorem scanFrom_gaps (gaps : List Gap) (position : Position) (rest : List Char) :
    scanFrom position (gaps.flatMap Gap.written ++ rest) =
      scanFrom (position.after (gaps.flatMap Gap.written)) rest := by
  induction gaps generalizing position with
  | nil => rfl
  | cons gap more ih =>
    rw [List.flatMap_cons, List.append_assoc, scanFrom_gap, ih,
      Position.after_append]

def Scanned.behind (scanned : Scanned) (tokens : List Token) : Scanned :=
  { scanned with tokens := tokens ++ scanned.tokens }

@[simp] theorem Scanned.behind_nil (scanned : Scanned) : scanned.behind [] = scanned := rfl

@[simp] theorem Scanned.behind_behind (scanned : Scanned) (first second : List Token) :
    (scanned.behind second).behind first = scanned.behind (first ++ second) := by
  simp [Scanned.behind]

/-- A character that is neither a blank nor the mark of a comment begins a lexeme. -/
theorem scanFrom_lexeme {first : Char} {rest : List Char} {found : Scan.Lexeme}
    (notGap : isGap first = false) (notRemark : first ≠ '#')
    (read : Scan.lexeme first rest = .ok found) (position : Position) :
    scanFrom position (first :: rest) =
      (scanFrom (position.after found.written) found.rest).behind [found.token position] := by
  rw [scanFrom_step (Scan.skipGap_stops notGap notRemark position rest), read]
  rfl

/-- A class without blanks and the mark of comments begins no gap. -/
theorem not_gap_of_class {inClass : Char → Bool} {character : Char}
    (inside : inClass character = true)
    (outside : [' ', '\t', '\r', '\n', '\x0c', '#'].all (fun other => !inClass other) = true) :
    isGap character = false ∧ character ≠ '#' := by
  simp only [List.all_cons, List.all_nil, Bool.and_true, Bool.and_eq_true, Bool.not_eq_true']
    at outside
  obtain ⟨space, tabulator, carriage, feed, page, remark⟩ := outside
  refine ⟨?_, ne_of_class inside _ remark⟩
  simp [isGap, ne_of_class inside _ space, ne_of_class inside _ tabulator,
    ne_of_class inside _ carriage, ne_of_class inside _ feed, ne_of_class inside _ page]

theorem Lexis.Quote.character_not_gap (quote : Quote) :
    isGap quote.character = false ∧ quote.character ≠ '#' := by
  cases quote <;> decide

theorem Lexis.Word.first_not_gap (word : Lexis.Word) :
    isGap word.first = false ∧ word.first ≠ '#' := by
  cases word with
  | identifier first tail begins | number first tail begins =>
    exact not_gap_of_class begins (by decide)
  | quoted quote items => exact quote.character_not_gap
  | mark character legal => exact not_gap_of_class legal (by decide)

theorem Delimiter.opening_not_gap (delimiter : Delimiter) :
    isGap delimiter.opening = false ∧ delimiter.opening ≠ '#' ∧ delimiter.opening ≠ '\n' := by
  cases delimiter <;> decide

theorem Delimiter.closing_not_gap (delimiter : Delimiter) :
    isGap delimiter.closing = false ∧ delimiter.closing ≠ '#' ∧ delimiter.closing ≠ '\n' := by
  cases delimiter <;> decide

/-! ## Flat tokens -/

@[simp] theorem flattenAll_nil : flattenAll [] = [] := by rw [flattenAll]

@[simp] theorem flattenAll_cons (token : Token) (rest : List Token) :
    flattenAll (token :: rest) = token.flatten ++ flattenAll rest := by rw [flattenAll]

@[simp] theorem flattenAll_append (first second : List Token) :
    flattenAll (first ++ second) = flattenAll first ++ flattenAll second := by
  induction first with
  | nil => simp
  | cons token rest ih => simp [ih]

@[simp] theorem Lexis.Word.flatten_token (word : Lexis.Word) (span : Span) :
    (word.token span).flatten = [word.token span] := by
  cases word <;> simp [Word.token, Token.flatten]

section

variable (rest : List Lexis.Piece) (start : Position)

theorem flatten_gap (gap : Gap) :
    flattenAll (tokensAll start (.gap gap :: rest)) =
      flattenAll (tokensAll (start.after gap.written) rest) := by
  simp [tokensAll, Piece.tokens]

theorem flatten_word (word : Lexis.Word) :
    flattenAll (tokensAll start (.word word :: rest)) =
      word.token ⟨start, start.after word.written⟩ ::
        flattenAll (tokensAll (start.after word.written) rest) := by
  simp [tokensAll, Piece.tokens]

/-- The brackets of a group get back the places they were read at. -/
theorem flatten_group (delimiter : Delimiter) (inner : List Lexis.Piece) :
    flattenAll (tokensAll start (.group delimiter inner :: rest)) =
      .opening delimiter ⟨start, start.after [delimiter.opening]⟩ ::
        (flattenAll (tokensAll (start.after [delimiter.opening]) inner) ++
          .closing delimiter
            ⟨start.after (delimiter.opening :: writtenAll inner),
              start.after (Lexis.Piece.group delimiter inner).written⟩ ::
          flattenAll (tokensAll
            (start.after (Lexis.Piece.group delimiter inner).written) rest)) := by
  have opened : start.next delimiter.opening = start.right :=
    Position.next_eq_right delimiter.opening_not_gap.2.2 start
  have closed : start.after (Lexis.Piece.group delimiter inner).written =
      (start.after (delimiter.opening :: writtenAll inner)).right := by
    rw [written_group, ← List.cons_append, Position.after_append, Position.after_cons,
      Position.after_nil, Position.next_eq_right delimiter.closing_not_gap.2.2]
  rw [tokensAll, Piece.tokens, List.singleton_append, flattenAll_cons, Token.flatten, closed]
  simp only [Position.left_right, Position.after_cons, Position.after_nil, opened,
    List.cons_append, List.append_assoc, List.nil_append]

end

/-! ## Pieces are scanned -/

theorem scanFrom_pieces (pieces : List Lexis.Piece) (after : List Char)
    (longest : LongestAll after pieces) (position : Position) :
    scanFrom position (writtenAll pieces ++ after) =
      (scanFrom (position.after (writtenAll pieces)) after).behind
        (flattenAll (tokensAll position pieces)) := by
  induction pieces using pieces_induction generalizing after position with
  | nil => simp [tokensAll]
  | gap gap rest ih =>
    rw [writtenAll_cons, written_gap, List.append_assoc, scanFrom_gap, ih after longest.2,
      flatten_gap, Position.after_append]
  | word word rest ih =>
    obtain ⟨notGap, notRemark⟩ := word.first_not_gap
    have read := Scan.lexeme_complete longest.1
    rw [writtenAll_cons, written_word, List.append_assoc, Word.written, List.cons_append,
      scanFrom_lexeme notGap notRemark read, word.token_of_lexeme, ih after longest.2, flatten_word]
    simp [Word.written]
  | group delimiter inner rest inside ih =>
    obtain ⟨openingNotGap, openingNotRemark, -⟩ := delimiter.opening_not_gap
    obtain ⟨closingNotGap, closingNotRemark, -⟩ := delimiter.closing_not_gap
    have text : writtenAll (.group delimiter inner :: rest) ++ after = delimiter.opening ::
        (writtenAll inner ++ delimiter.closing :: (writtenAll rest ++ after)) := by
      simp
    rw [text, scanFrom_lexeme openingNotGap openingNotRemark (Scan.lexeme_opening delimiter _),
      inside _ longest.1,
      scanFrom_lexeme closingNotGap closingNotRemark (Scan.lexeme_closing delimiter _),
      ih after longest.2, flatten_group]
    simp [Scan.Lexeme.token]

/-! ## Pieces are nested -/

section

variable {source : List Char} {fault : Option LexicalFault} {opened : List OpenGroup}
  {current : List Token}

theorem nest_word (word : Lexis.Word) (span : Span) (rest : List Token) :
    nest source fault opened current (word.token span :: rest) =
      nest source fault opened (word.token span :: current) rest := by
  cases word <;> rfl

theorem nest_opening (delimiter : Delimiter) (span : Span) (rest : List Token) :
    nest source fault opened current (.opening delimiter span :: rest) =
      nest source fault (⟨delimiter, span.start, current⟩ :: opened) [] rest := by
  rw [nest]

theorem nest_closing (group : OpenGroup) (span : Span) (rest : List Token) :
    nest source fault (group :: opened) current (.closing group.delimiter span :: rest) =
      nest source fault opened
        (.group group.delimiter
          (String.ofList (sliceOf source group.start.offset span.stop.offset)) current.reverse
          ⟨group.start, span.stop⟩ :: group.outer) rest := by
  rw [nest, if_pos rfl]

end

/-- The text of a group stands between its brackets. -/
theorem sliceOf_group {source before after : List Char} {delimiter : Delimiter}
    {inner : List Lexis.Piece}
    (text : source = before ++ ((Lexis.Piece.group delimiter inner).written ++ after)) :
    sliceOf source (Position.origin.after before).offset
        ((Position.origin.after before).after
          (Lexis.Piece.group delimiter inner).written).offset =
      (Lexis.Piece.group delimiter inner).written := by
  rw [text]
  apply sliceOf_parts
  · rw [Position.origin_after_offset]
  · rw [Position.after_offset, Position.origin_after_offset]

/-- The flat tokens of pieces become their tokens again. -/
theorem nest_pieces {source : List Char} (pieces : List Lexis.Piece) (before after : List Char)
    (text : source = before ++ (writtenAll pieces ++ after)) (opened : List OpenGroup)
    (current more : List Token) :
    nest source none opened current
        (flattenAll (tokensAll (Position.origin.after before) pieces) ++ more) =
      nest source none opened
        ((tokensAll (Position.origin.after before) pieces).reverse ++ current) more := by
  induction pieces using pieces_induction generalizing before after opened current more with
  | nil => simp [tokensAll]
  | gap gap rest ih =>
    have restNested := ih (before ++ gap.written) after (by simp [text])
    rw [Position.after_append] at restNested
    rw [flatten_gap, restNested, tokensAll, Piece.tokens, List.nil_append, written_gap]
  | word word rest ih =>
    have restNested := ih (before ++ word.written) after (by simp [text])
    rw [Position.after_append] at restNested
    rw [flatten_word, List.cons_append, nest_word, restNested]
    simp [tokensAll, Piece.tokens]
  | group delimiter inner rest inside ih =>
    have innerNested := inside (before ++ [delimiter.opening])
      (delimiter.closing :: (writtenAll rest ++ after)) (by simp [text])
    have restNested := ih (before ++ (Lexis.Piece.group delimiter inner).written) after
      (by simp [text])
    have raw := sliceOf_group (text.trans (by rw [writtenAll_cons, List.append_assoc]))
    rw [Position.after_append] at innerNested restNested
    rw [flatten_group, List.cons_append, nest_opening, List.append_assoc, innerNested,
      List.append_nil, List.cons_append,
      nest_closing ⟨delimiter, Position.origin.after before, current⟩, raw, List.reverse_reverse,
      restNested]
    simp [tokensAll, Piece.tokens]

theorem tokenize_layout {layout : Layout} (longest : layout.Longest) {source : String}
    (written : layout.written = source.toList) : tokenize source = .ok layout.tokens := by
  have scanned : scan source.toList = ⟨flattenAll (tokensAll .origin layout.pieces),
      Position.origin.after layout.written, none⟩ := by
    rw [scan, ← written, Layout.written, scanFrom_pieces _ _ longest,
      scanFrom_end (Scan.skipGap_ending layout _)]
    simp [Scanned.behind]
  have text : source.toList = [] ++ (writtenAll layout.pieces ++ layout.ending) := by
    rw [← written]
    rfl
  have nested := nest_pieces layout.pieces [] layout.ending text [] [] []
  simp only [Position.after_nil, List.append_nil] at nested
  rw [tokenize, scanned, nested, nest, List.reverse_reverse]
  rfl

namespace Lexis

/-- Pieces keep their words the longest in front of another text, if every word does. -/
theorem LongestAll.imp {after other : List Char} {pieces : List Piece}
    (keeps : ∀ (word : Lexis.Word) (text : List Char),
      word.LongestBefore (text ++ after) → word.LongestBefore (text ++ other))
    (longest : LongestAll after pieces) : LongestAll other pieces := by
  induction pieces using pieces_induction generalizing after other with
  | nil => trivial
  | gap gap rest ih => exact ⟨trivial, ih keeps longest.2⟩
  | word word rest ih => exact ⟨keeps word _ longest.1, ih keeps longest.2⟩
  | group delimiter inner rest inside ih =>
    refine ⟨inside (fun word text => ?_) longest.1, ih keeps longest.2⟩
    simpa using keeps word (text ++ delimiter.closing :: writtenAll rest)

/-- Words stay the longest when less text follows. -/
theorem LongestAll.shortened {shorter longer : List Char} {pieces : List Piece}
    (begins : shorter <+: longer) (longest : LongestAll longer pieces) :
    LongestAll shorter pieces := by
  refine longest.imp fun word text isLongest other isPrefix => isLongest other ?_
  simp only [← List.append_assoc] at isPrefix ⊢
  exact isPrefix.trans ((List.prefix_append_right_inj _).mpr begins)

end Lexis

/-- Pieces are tokenized by themselves as in a text. -/
theorem tokenize_pieces {pieces : List Lexis.Piece} {after : List Char}
    (longest : LongestAll after pieces) : tokenize (String.ofList (writtenAll pieces)) =
      .ok ⟨tokensAll .origin pieces, Position.origin.after (writtenAll pieces)⟩ := by
  have whole : (Layout.mk pieces none).written = writtenAll pieces := List.append_nil _
  have alone : (Layout.mk pieces none).Longest := longest.shortened List.nil_prefix
  rw [tokenize_layout alone (whole.trans String.toList_ofList.symm), Layout.tokens, whole]

/-! ## Texts that are tokenized -/

/-- How a text goes on inside of opened groups, the innermost first: pieces, the bracket that closes
the group, and so on outwards. -/
def Closes : List Delimiter → List Char → Prop
  | [], text => ∃ layout : Layout, layout.written = text
  | delimiter :: outer, text =>
    ∃ pieces rest, writtenAll pieces ++ delimiter.closing :: rest = text ∧ Closes outer rest

theorem Closes.behind {opened : List Delimiter} {text : List Char} (pieces : List Lexis.Piece)
    (closes : Closes opened text) : Closes opened (writtenAll pieces ++ text) := by
  cases opened with
  | nil =>
    obtain ⟨layout, rfl⟩ := closes
    refine ⟨⟨pieces ++ layout.pieces, layout.remark⟩, ?_⟩
    simp [Layout.written, Layout.ending]
  | cons delimiter outer =>
    obtain ⟨inner, rest, rfl, closesOuter⟩ := closes
    exact ⟨pieces ++ inner, rest, by simp, closesOuter⟩

theorem writtenAll_gaps (gaps : List Gap) :
    writtenAll (gaps.map .gap) = gaps.flatMap Gap.written := by
  induction gaps with
  | nil => simp
  | cons gap rest ih => simp [ih]

theorem fault_of_nest {source : List Char} {fault : Option LexicalFault} {opened : List OpenGroup}
    {current tokens body : List Token}
    (nested : nest source fault opened current tokens = .ok body) : fault = none := by
  fun_induction nest source fault opened current tokens with
  | case1 | case2 | case5 | case7 => cases nested
  | case3 _ absent => exact absent
  | case4 _ _ _ _ _ ih | case6 _ _ _ _ _ _ _ ih | case8 _ _ _ _ _ _ ih => exact ih nested

/-- One lexeme more in front of a text that closes whatever is open. -/
theorem closes_lexeme {source rest : List Char} {first : Char} {found : Scan.Lexeme}
    {start : Position} {opened : List OpenGroup} {current tokens body : List Token}
    (read : Scan.lexeme first rest = .ok found)
    (nested : nest source none opened current (found.token start :: tokens) = .ok body)
    (further : ∀ others before, nest source none others before tokens = .ok body →
      Closes (others.map OpenGroup.delimiter) found.rest) :
    Closes (opened.map OpenGroup.delimiter) (first :: rest) := by
  have split := Scan.lexeme_written read
  rcases Scan.lexeme_sound read with ⟨delimiter, rfl, rfl⟩ | ⟨delimiter, rfl, rfl⟩ | ⟨word, same⟩
  · rw [Scan.Lexeme.token] at nested
    cases opened with
    | nil => cases nested
    | cons group outer =>
      by_cases matching : group.delimiter = delimiter
      · subst matching
        rw [nest_closing] at nested
        exact ⟨[], rest, by simp, further outer _ nested⟩
      · rw [nest, if_neg matching] at nested
        cases nested
  · rw [Scan.Lexeme.token, nest_opening] at nested
    have opens : Closes (delimiter :: opened.map OpenGroup.delimiter) rest := further _ _ nested
    obtain ⟨inner, behind, innerText, closesOuter⟩ := opens
    have whole := closesOuter.behind [.group delimiter inner]
    rw [← innerText]
    simpa using whole
  · rw [same, word.token_of_lexeme, nest_word] at nested
    have whole := (further _ _ nested).behind [.word word]
    rw [split, same]
    simpa using whole

/-- A text whose tokens can be nested closes the groups that are open, and has a layout behind
them. -/
theorem closes_of_nest {source : List Char} (text : List Char) {position : Position}
    {opened : List OpenGroup} {current body : List Token}
    (sane : (scanFrom position text).fault = none)
    (nested : nest source none opened current (scanFrom position text).tokens = .ok body) :
    Closes (opened.map OpenGroup.delimiter) text := by
  obtain ⟨gaps, ⟨layout, rfl⟩ | ⟨first, rest, split, notGap, notRemark⟩⟩ := exists_gaps text
  · rw [scanFrom_gaps, scanFrom_end (Scan.skipGap_ending layout _)] at nested
    cases opened with
    | nil => exact ⟨⟨gaps.map .gap, layout.remark⟩, by rw [← writtenAll_gaps]; rfl⟩
    | cons group outer => cases nested
  · rw [split, scanFrom_gaps] at sane nested
    rw [split, ← writtenAll_gaps]
    apply Closes.behind
    cases read : Scan.lexeme first rest with
    | error fault =>
      rw [scanFrom_step (Scan.skipGap_stops notGap notRemark _ _), read] at sane
      cases sane
    | ok found =>
      rw [scanFrom_lexeme notGap notRemark read] at sane nested
      exact closes_lexeme read nested fun _ _ others => closes_of_nest found.rest sane others
termination_by text.length
decreasing_by
  have shorter := Scan.lexeme_rest_length read
  rw [split, List.length_append, List.length_cons]
  omega

theorem exists_layout {source : String} {tokens : Tokens} (read : tokenize source = .ok tokens) :
    ∃ layout : Layout, layout.written = source.toList := by
  obtain ⟨body, nested, -⟩ := map_eq_ok.mp read
  have sane := fault_of_nest nested
  rw [sane] at nested
  exact closes_of_nest source.toList sane nested

theorem stops_ending (layout : Layout) : Stops isPlain layout.ending := by
  obtain ⟨pieces, remark⟩ := layout
  rintro character rest begins
  cases remark with
  | none => cases begins
  | some remark =>
    cases begins
    rfl

/-- A layout can be cut again into longest words. -/
theorem exists_longest_layout (layout : Layout) :
    ∃ other : Layout, other.Longest ∧ other.written = layout.written := by
  obtain ⟨pieces, written, longest⟩ := exists_longest layout.pieces layout.ending
    (stops_ending layout)
  refine ⟨⟨pieces, layout.remark⟩, longest, ?_⟩
  rw [Layout.written, Layout.written, written]
  rfl

/-- The tokens of a text are those of its longest words. -/
theorem tokenize_eq_ok {source : String} {tokens : Tokens} :
    tokenize source = .ok tokens ↔
      ∃ layout : Layout, layout.Longest ∧ layout.written = source.toList ∧
        layout.tokens = tokens := by
  constructor
  · intro read
    obtain ⟨layout, written⟩ := exists_layout read
    obtain ⟨other, longest, same⟩ := exists_longest_layout layout
    have again := tokenize_layout longest (same.trans written)
    exact ⟨other, longest, same.trans written, Except.ok.inj (again.symm.trans read)⟩
  · rintro ⟨layout, longest, written, rfl⟩
    exact tokenize_layout longest written

/-! ## Writing a quoted text -/

namespace Lexis

/-- A text between quotes, with a backslash before every backslash and every such quote of it. -/
def Quote.write (quote : Quote) (value : List Char) : List Char :=
  quote.character ::
    (value.flatMap fun character =>
      if character = '\\' ∨ character = quote.character then ['\\', character] else [character]) ++
    [quote.character]

theorem Quote.exists_item (quote : Quote) (character : Char) :
    ∃ item : Item quote.character, item.denoted = character ∧
      item.written = if character = '\\' ∨ character = quote.character then ['\\', character]
        else [character] := by
  by_cases escaped : character = '\\' ∨ character = quote.character
  · have listed : (character, character) ∈ simpleEscapes := by
      rcases escaped with rfl | rfl
      · decide
      · cases quote <;> decide
    exact ⟨.escape (.simple character character listed), rfl, (if_pos escaped).symm⟩
  · have plain := not_or.mp escaped
    exact ⟨.plain character plain.2 plain.1, rfl, (if_neg escaped).symm⟩

theorem Quote.exists_word (quote : Quote) (value : List Char) :
    ∃ items : List (Item quote.character), items.map Item.denoted = value ∧
      (Word.quoted quote items).written = quote.write value := by
  induction value with
  | nil => exact ⟨[], rfl, rfl⟩
  | cons character rest ih =>
    obtain ⟨items, denoted, written⟩ := ih
    obtain ⟨item, itemDenoted, itemWritten⟩ := quote.exists_item character
    refine ⟨item :: items, by rw [List.map_cons, itemDenoted, denoted], ?_⟩
    simp only [Word.written, Word.first, Word.tail, Quote.write, List.cons_append,
      List.cons.injEq, true_and, List.append_cancel_right_eq] at written ⊢
    rw [List.flatMap_cons, List.flatMap_cons, itemWritten, written]

end Lexis

theorem tokenize_write (quote : Quote) (value : String) :
    tokenize (String.ofList (quote.write value.toList)) =
      .ok ⟨[.quoted value (String.ofList (quote.write value.toList))
          ⟨.origin, Position.origin.after (quote.write value.toList)⟩],
        Position.origin.after (quote.write value.toList)⟩ := by
  obtain ⟨items, denoted, written⟩ := quote.exists_word value.toList
  have longest : LongestAll [] [.word (.quoted quote items)] := ⟨longest_quoted _, trivial⟩
  have read := tokenize_pieces longest
  simpa [tokensAll, Piece.tokens, Word.token, written, denoted] using read

end TypedMarkup
