import TypedMarkup.Proofs.Token.Losslessness

/-!
Contract: flat tokens are folded into groups again.

Owns: `WellNested`, which says that brackets are paired, each with one of its own delimiter,
`regroup`, which folds every pair and what stands between into a group, and the theorem that the
flat tokens of a text are well nested and that folding them gives the nested ones.

A sequence is folded from its end to its beginning: when an opening bracket is met, the tokens of
its group are complete and the bracket that closes it is known. -/

namespace TypedMarkup

open Lexis

/-! ## Flat sequences -/

/-- The brackets of a flat sequence are paired and the pairs do not cross. -/
inductive WellNested : List Token → Prop where
  | nil : WellNested []
  | single {token : Token} {rest : List Token} (noBracket : token.delimiter? = none)
      (further : WellNested rest) : WellNested (token :: rest)
  | pair {delimiter : Delimiter} {opened closed : Span} {inner rest : List Token}
      (inside : WellNested inner) (further : WellNested rest) :
      WellNested (.opening delimiter opened :: (inner ++ .closing delimiter closed :: rest))

/-- A bracket that closes a group not yet begun: its delimiter, where it ends, and the tokens
behind it. -/
structure ClosedGroup where
  delimiter : Delimiter
  stop : Position
  behind : List Token

/-- The end of a flat sequence, folded as far as its pairs are complete: the closing brackets that
wait for their opening ones, the innermost first, and the tokens before the first of them. -/
structure Folding where
  closed : List ClosedGroup
  tokens : List Token

namespace Folding

/-- Puts one more token in front. An opening bracket makes a group out of the tokens up to the
bracket that closes it. The text of the group is read from the source. -/
def cons (source : List Char) (token : Token) (folding : Folding) : Option Folding :=
  match token, folding.closed with
  | .closing delimiter span, waiting =>
    some ⟨⟨delimiter, span.stop, folding.tokens⟩ :: waiting, []⟩
  | .opening _ _, [] => none
  | .opening delimiter span, group :: outer =>
    if group.delimiter = delimiter then
      let raw := String.ofList (sliceOf source span.start.offset group.stop.offset)
      let folded := Token.group delimiter raw folding.tokens ⟨span.start, group.stop⟩
      some ⟨outer, folded :: group.behind⟩
    else none
  | other, waiting => some ⟨waiting, other :: folding.tokens⟩

/-- Folds a flat sequence. -/
def ofTokens (source : List Char) : List Token → Option Folding
  | [] => some ⟨[], []⟩
  | token :: rest => (ofTokens source rest).bind (cons source token)

def behind (folding : Folding) (tokens : List Token) : Folding :=
  { folding with tokens := tokens ++ folding.tokens }

end Folding

/-- The tokens of a flat sequence with every pair of brackets folded into a group, if the brackets
are paired. -/
def regroup (source : List Char) (tokens : List Token) : Option (List Token) :=
  match Folding.ofTokens source tokens with
  | some ⟨[], folded⟩ => some folded
  | _ => none

/-! ## Flat tokens are well nested -/

theorem Lexis.Word.delimiter?_token (word : Lexis.Word) (span : Span) :
    (word.token span).delimiter? = none := by
  cases word <;> rfl

theorem wellNested_pieces (pieces : List Lexis.Piece) (position : Position) {rest : List Token}
    (further : WellNested rest) : WellNested (flattenAll (tokensAll position pieces) ++ rest) := by
  induction pieces using pieces_induction generalizing position rest with
  | nil => simpa [tokensAll] using further
  | gap gap more ih =>
    rw [flatten_gap]
    exact ih _ further
  | word word more ih =>
    rw [flatten_word]
    exact .single (word.delimiter?_token _) (ih _ further)
  | group delimiter inner more inside ih =>
    have within := inside (position.after [delimiter.opening]) .nil
    rw [List.append_nil] at within
    rw [flatten_group, List.cons_append, List.append_assoc]
    exact .pair within (ih _ further)

/-! ## Flat tokens are folded -/

namespace Folding

variable {source : List Char}

theorem cons_of_noBracket {token : Token} (noBracket : token.delimiter? = none)
    (folding : Folding) : cons source token folding = some (folding.behind [token]) := by
  cases token with
  | group | opening | closing => cases noBracket
  | _ => rfl

/-- A pair of brackets is folded around the tokens between them. -/
theorem ofTokens_pair {delimiter : Delimiter} {opened closed : Span} {inner children : List Token}
    (folds : ∀ rest, ofTokens source (inner ++ rest) =
      (ofTokens source rest).map (behind · children))
    (rest : List Token) :
    ofTokens source (.opening delimiter opened :: (inner ++ .closing delimiter closed :: rest)) =
      (ofTokens source rest).map (behind · [.group delimiter
        (String.ofList (sliceOf source opened.start.offset closed.stop.offset)) children
        ⟨opened.start, closed.stop⟩]) := by
  rw [ofTokens, folds, ofTokens]
  cases ofTokens source rest with
  | none => rfl
  | some folding => simp [cons, behind]

theorem ofTokens_pieces (pieces : List Lexis.Piece) (before after : List Char)
    (text : source = before ++ (writtenAll pieces ++ after)) (rest : List Token) :
    ofTokens source (flattenAll (tokensAll (Position.origin.after before) pieces) ++ rest) =
      (ofTokens source rest).map (behind · (tokensAll (Position.origin.after before) pieces)) := by
  induction pieces using pieces_induction generalizing before after rest with
  | nil => simp [tokensAll, behind]
  | gap gap more ih =>
    have moreFolds := ih (before ++ gap.written) after (by simp [text])
    rw [Position.after_append] at moreFolds
    rw [flatten_gap, moreFolds, tokensAll, Piece.tokens, List.nil_append, written_gap]
  | word word more ih =>
    have moreFolds := ih (before ++ word.written) after (by simp [text])
    rw [Position.after_append] at moreFolds
    rw [flatten_word, List.cons_append, ofTokens, moreFolds]
    cases ofTokens source rest with
    | none => rfl
    | some folding =>
      simp [cons_of_noBracket (word.delimiter?_token _), tokensAll, Piece.tokens, behind]
  | group delimiter inner more inside ih =>
    have innerFolds := inside (before ++ [delimiter.opening])
      (delimiter.closing :: (writtenAll more ++ after)) (by simp [text])
    have moreFolds := ih (before ++ (Lexis.Piece.group delimiter inner).written) after
      (by simp [text])
    have raw := sliceOf_group (text.trans (by rw [writtenAll_cons, List.append_assoc]))
    rw [Position.after_append] at innerFolds moreFolds
    rw [flatten_group, List.cons_append, List.append_assoc, List.cons_append,
      ofTokens_pair innerFolds, raw, moreFolds, Option.map_map, tokensAll, Piece.tokens]
    simp [behind, Function.comp_def]

end Folding

theorem regroup_flatten (layout : Layout) :
    regroup layout.written layout.tokens.flatten.toList = some layout.tokens.toList := by
  have text : layout.written = [] ++ (writtenAll layout.pieces ++ layout.ending) := rfl
  have folds := Folding.ofTokens_pieces layout.pieces [] layout.ending text
    [.endOfInput layout.tokens.stop]
  have flat : layout.tokens.flatten.toList =
      flattenAll (tokensAll (Position.origin.after []) layout.pieces) ++
        [.endOfInput layout.tokens.stop] := rfl
  rw [regroup, flat, folds]
  rfl

theorem Tokens.Level.texts_of_group {layout : Layout} {start stop : Nat}
    {level children : List Token}
    {delimiter : Delimiter} {raw : String} {span : Span}
    (found : layout.tokens.Level start stop level)
    (member : .group delimiter raw children span ∈ level) :
    raw.toList = sliceOf layout.written span.start.offset span.stop.offset ∧
      (Token.group delimiter raw children span).value.toList =
        sliceOf layout.written (span.start.offset + 1) (span.stop.offset - 1) := by
  have placed := found.lossless.placed _ member
  refine ⟨placed.exact, ?_⟩
  rw [Token.value, String.toList_ofList, placed.brackets delimiter raw children span rfl]
  simp

/-- Flattening loses nothing: the flat tokens of a text are well nested, and folding every pair of
brackets, with the text of each group read from the source, gives the nested tokens back as they
were. The text between the brackets of a group, at every depth, is the value of the group. -/
theorem flattening_is_undone {source : String} {tokens : Tokens}
    (read : tokenize source = .ok tokens) :
    WellNested tokens.flatten.toList ∧
    regroup source.toList tokens.flatten.toList = some tokens.toList ∧
    ∀ start stop level, tokens.Level start stop level →
      ∀ delimiter raw children span, .group delimiter raw children span ∈ level →
        raw.toList = sliceOf source.toList span.start.offset span.stop.offset ∧
        (Token.group delimiter raw children span).value.toList =
          sliceOf source.toList (span.start.offset + 1) (span.stop.offset - 1) := by
  obtain ⟨layout, -, written, rfl⟩ := tokenize_eq_ok.mp read
  rw [← written]
  refine ⟨?_, regroup_flatten layout, ?_⟩
  · exact wellNested_pieces layout.pieces .origin (.single rfl .nil)
  · intro start stop level found delimiter raw children span member
    exact found.texts_of_group member

/-- Groups of all three delimiters in one another and beside each other, on two lines. -/
def bracketedText : String := "([a]\n\x7b'(' (1)\x7d)[]"

theorem bracketedText_is_regrouped :
    ∃ tokens, tokenize bracketedText = .ok tokens ∧ tokens.body.length = 2 ∧
      tokens.flatten.body.length = 13 ∧ WellNested tokens.flatten.toList ∧
      regroup bracketedText.toList tokens.flatten.toList = some tokens.toList := by
  have reads : yields (fun tokens => tokens.body.length == 2 && tokens.flatten.body.length == 13)
      (tokenize bracketedText) = true := by
    decide +kernel
  obtain ⟨tokens, read, counted⟩ := exists_of_yields reads
  rw [Bool.and_eq_true, beq_iff_eq, beq_iff_eq] at counted
  obtain ⟨nested, folded, -⟩ := flattening_is_undone read
  exact ⟨tokens, read, counted.1, counted.2, nested, folded⟩

end TypedMarkup
