import TypedMarkup.Proofs.Markup.Joining
import TypedMarkup.Proofs.Markup.PathPairs
import TypedMarkup.Proofs.Token.Losslessness

/-!
Contract: the host code of a group is the group with its paths joined by points.

Owns: that the separators of tokens are where their pieces are joined, so that the host code of a
group is what the joined pieces write, and what follows: the code is tokenized again, its tokens are
those of the group with a point for each pair of colons, and it is its own host code.
-/

namespace TypedMarkup

namespace Lexis

/-! ## Which tokens stand ahead -/

theorem Word.token_of_isColon {word : Word} (colon : word.isColon = true) (span : Span) :
    word.token span = .mark ':' span := by
  cases word with
  | mark character legal =>
    have same : character = ':' := by simpa [isColon] using colon
    rw [Word.token, same]
  | _ => cases colon

theorem Word.isColon_of_token {word : Word} {span other : Span}
    (same : word.token span = .mark ':' other) : word.isColon = true ∧ span = other := by
  cases word with
  | mark character legal =>
    cases same
    exact ⟨rfl, rfl⟩
  | _ => cases same

theorem nextIsName_iff (pieces : List Piece) (position : Position) :
    nextIsName pieces = true ↔
      ∃ name span more, tokensAll position pieces = .identifier name span :: more := by
  induction pieces generalizing position with
  | nil => simp [nextIsName, tokensAll]
  | cons piece rest ih =>
    cases piece with
    | gap gap => simpa [nextIsName, tokensAll, Piece.tokens] using ih _
    | group delimiter inner => simp [nextIsName, tokensAll, Piece.tokens]
    | word word =>
      rw [nextIsName, tokensAll, Piece.tokens, List.singleton_append]
      cases word <;> simp [Word.isName, Word.token]

theorem start_of_tokensAll {pieces : List Piece} {position : Position} {token : Token}
    {more : List Token} (tokens : tokensAll position pieces = token :: more) :
    position.offset ≤ token.span.start.offset := by
  induction pieces generalizing position with
  | nil => simp [tokensAll] at tokens
  | cons piece rest ih =>
    cases piece with
    | gap gap =>
      rw [tokensAll, Piece.tokens, List.nil_append] at tokens
      have begins := ih tokens
      rw [Position.after_offset] at begins
      omega
    | group delimiter inner =>
      rw [tokensAll, Piece.tokens, List.singleton_append] at tokens
      cases tokens
      exact Nat.le_refl _
    | word word =>
      rw [tokensAll, Piece.tokens, List.singleton_append] at tokens
      cases tokens
      rw [Word.span_token]

/-- A colon at the place and a name behind it are the tokens ahead. -/
theorem colonAndName_iff (pieces : List Piece) (position : Position) :
    colonAndName pieces = true ↔
      ∃ second member memberSpan more,
        tokensAll position pieces = .mark ':' second :: .identifier member memberSpan :: more ∧
          position.offset = second.start.offset := by
  cases pieces with
  | nil => simp [colonAndName, tokensAll]
  | cons piece rest =>
    cases piece with
    | gap gap =>
      refine iff_of_false Bool.false_ne_true ?_
      rintro ⟨second, member, memberSpan, more, tokens, here⟩
      rw [tokensAll, Piece.tokens, List.nil_append] at tokens
      have begins := start_of_tokensAll tokens
      obtain ⟨first, others, written, -⟩ := gap.exists_written
      simp [written] at begins
      simp [Token.span] at begins
      omega
    | group delimiter inner => simp [colonAndName, tokensAll, Piece.tokens]
    | word word =>
      rw [colonAndName, Bool.and_eq_true, tokensAll, Piece.tokens, List.singleton_append,
        nextIsName_iff rest]
      constructor
      · rintro ⟨colon, member, memberSpan, more, tokens⟩
        rw [Word.token_of_isColon colon, tokens]
        exact ⟨_, _, _, _, rfl, rfl⟩
      · rintro ⟨second, member, memberSpan, more, tokens, -⟩
        obtain ⟨same, others⟩ := List.cons.inj tokens
        exact ⟨(Word.isColon_of_token same).1, _, _, _, others⟩

end Lexis

namespace Capture

open Lexis

/-! ## Surroundings of a token -/

/-- What is left of a place, told from the token before it. -/
structure Describes (place : Surroundings) (before : Option Token) (start : Position) : Prop where
  valued : ∀ delimiter raw inner span,
    isSubscript before (.group delimiter raw inner span) = (delimiter == .bracket && place.valued)
  named : place.named = true ↔
    ∃ name span, before = some (.identifier name span) ∧ span.stop.offset = start.offset
  ends : ∀ token, before = some token → token.span.stop.offset ≤ start.offset

namespace Describes

variable {place : Surroundings} {before : Option Token} {start : Position}

theorem nothing (subscript : Bool) (start : Position) :
    Describes ⟨subscript, false, false⟩ none start := by
  refine ⟨?_, by simp, by simp⟩
  intro delimiter raw inner span
  simp [isSubscript]

theorem behindGap (described : Describes place before start) (gap : Gap) :
    Describes place.behindGap before (start.after gap.written) := by
  obtain ⟨first, others, written, -⟩ := gap.exists_written
  have longer : start.offset < (start.after gap.written).offset := by
    rw [Position.after_offset, written, List.length_cons]
    omega
  refine ⟨described.valued, ⟨nofun, ?_⟩, ?_⟩
  · rintro ⟨name, span, rfl, here⟩
    have ends : span.stop.offset ≤ start.offset := described.ends _ rfl
    omega
  · intro token same
    have ends := described.ends token same
    omega

theorem behindWord (place : Surroundings) (start : Position) (word : Lexis.Word) :
    Describes (place.behindWord word) (some (word.token ⟨start, start.after word.written⟩))
      (start.after word.written) := by
  refine ⟨?_, ?_, ?_⟩
  · intro delimiter raw inner span
    unfold isSubscript
    rw [Token.isGroup]
    cases word <;> rfl
  · cases word <;> simp [Surroundings.behindWord, Word.isName, Word.token]
  · intro token same
    cases same
    rw [Word.span_token]

theorem behindGroup (place : Surroundings) (delimiter : Delimiter) (raw : String)
    (inner : List Token) (start stop : Position) :
    Describes (place.behindGroup delimiter) (some (.group delimiter raw inner ⟨start, stop⟩))
      stop := by
  refine ⟨?_, by simp [Surroundings.behindGroup], ?_⟩
  · intro other otherRaw otherInner span
    rfl
  · intro token same
    cases same
    exact Nat.le_refl _

/-- Two colons join a path among tokens as they do among pieces. -/
theorem joinsPath_eq (described : Describes place before start) (word : Lexis.Word)
    (rest : List Lexis.Piece) :
    (!place.subscript && joinsPath before (word.token ⟨start, start.after word.written⟩)
      (tokensAll (start.after word.written) rest)) = place.joins word rest := by
  rw [Surroundings.joins]
  congr 1
  rw [Bool.eq_iff_iff, joinsPath_iff, Bool.and_eq_true, Bool.and_eq_true, described.named,
    colonAndName_iff rest (start.after word.written)]
  constructor
  · rintro ⟨head, headSpan, first, second, member, memberSpan, more, rfl, token, ahead, directly,
      touching⟩
    obtain ⟨colon, rfl⟩ := Word.isColon_of_token token
    exact ⟨⟨⟨head, headSpan, rfl, directly⟩, colon⟩, second, member, memberSpan, more, ahead,
      touching⟩
  · rintro ⟨⟨⟨head, headSpan, rfl, directly⟩, colon⟩, second, member, memberSpan, more, ahead,
      touching⟩
    exact ⟨head, headSpan, _, second, member, memberSpan, more, rfl, Word.token_of_isColon colon _,
      ahead, directly, touching⟩

end Describes

/-! ## Where separators are collected -/

def groupToken (delimiter : Delimiter) (inner : List Lexis.Piece) (start : Position) : Token :=
  .group delimiter (String.ofList (Lexis.Piece.group delimiter inner).written)
    (tokensAll (start.next delimiter.opening) inner)
    ⟨start, start.after (Lexis.Piece.group delimiter inner).written⟩

theorem separatorsOf_word (subscript : Bool) (word : Lexis.Word) (span : Span) :
    separatorsOf subscript (word.token span) = [] := by
  cases word <;> simp [Word.token, separatorsOf]

theorem separatorsIn_inside {subscript : Bool} {before : Option Token} {place : Nat}
    (pieces : List Lexis.Piece) (start : Position)
    (collected : place ∈ separatorsIn subscript before (tokensAll start pieces)) :
    start.offset ≤ place ∧ place < start.offset + (writtenAll pieces).length := by
  match pieces with
  | [] => simp [tokensAll, separatorsIn] at collected
  | .gap gap :: rest =>
    rw [tokensAll, Piece.tokens, List.nil_append] at collected
    have inside := separatorsIn_inside rest _ collected
    simp only [written_gap, Position.after_offset, writtenAll_cons, List.length_append]
      at inside ⊢
    omega
  | .word word :: rest =>
    rw [tokensAll, Piece.tokens, List.singleton_append, separatorsIn] at collected
    rcases List.mem_append.mp collected with here | later
    · rw [separatorsOf_word] at here
      split at here
      · cases List.mem_singleton.mp here
        rw [Word.span_token]
        simp [Word.written]
      · cases here
    · have inside := separatorsIn_inside rest _ later
      simp only [written_word, Position.after_offset, writtenAll_cons,
        List.length_append] at inside ⊢
      omega
  | .group delimiter inner :: rest =>
    rw [tokensAll, Piece.tokens, List.singleton_append, separatorsIn] at collected
    rcases List.mem_append.mp collected with here | later
    · rw [if_neg (by simp [joinsPath]), separatorsOf] at here
      have inside := separatorsIn_inside inner _ here
      simp only [Position.next_offset, writtenAll_cons, written_group, List.length_append,
        List.length_cons] at inside ⊢
      omega
    · have inside := separatorsIn_inside rest _ later
      simp only [Position.after_offset, writtenAll_cons, List.length_append] at inside ⊢
      omega

section

variable {start : Position} {place : Surroundings} {before : Option Token}
  {first second : Lexis.Word}

theorem Describes.separatorsIn_word (described : Describes place before start) (word : Lexis.Word)
    (rest : List Lexis.Piece) :
    separatorsIn place.subscript before (tokensAll start (.word word :: rest)) =
      (if place.joins word rest then [start.offset] else []) ++
        separatorsIn place.subscript (some (word.token ⟨start, start.after word.written⟩))
          (tokensAll (start.after word.written) rest) := by
  rw [tokensAll, Piece.tokens, List.singleton_append, written_word, separatorsIn,
    described.joinsPath_eq, separatorsOf_word, Word.span_token]

theorem behindWord_of_isColon {word : Lexis.Word} (colon : word.isColon = true)
    (place : Surroundings) : place.behindWord word = place.behindWord .point := by
  cases word with
  | mark character legal => rfl
  | _ => cases colon

/-- The second colon of a pair begins none. -/
theorem Describes.separatorsIn_pair (described : Describes place before start)
    {rest : List Lexis.Piece} (firstColon : first.isColon = true)
    (joins : place.joins first (.word second :: rest) = true) :
    separatorsIn place.subscript before (tokensAll start (.word first :: .word second :: rest)) =
      start.offset :: separatorsIn place.subscript
        (some (second.token ⟨start.after first.written,
          (start.after first.written).after second.written⟩))
        (tokensAll ((start.after first.written).after second.written) rest) := by
  have further : separatorsIn place.subscript _ _ = _ :=
    (Describes.behindWord place start first).separatorsIn_word second rest
  have none : (place.behindWord first).joins second rest = false := by
    rw [behindWord_of_isColon firstColon]
    simp [Surroundings.joins, Surroundings.behindWord, Word.point, Word.isName]
  rw [described.separatorsIn_word, if_pos joins, further, none]
  rfl

theorem Describes.separatorsIn_group (described : Describes place before start)
    (delimiter : Delimiter) (inner rest : List Lexis.Piece) :
    separatorsIn place.subscript before (tokensAll start (.group delimiter inner :: rest)) =
      separatorsIn (place.inside delimiter).subscript none
          (tokensAll (start.next delimiter.opening) inner) ++
        separatorsIn place.subscript (some (groupToken delimiter inner start))
          (tokensAll (start.after (Lexis.Piece.group delimiter inner).written) rest) := by
  rw [tokensAll, Piece.tokens, List.singleton_append, separatorsIn, if_neg (by simp [joinsPath]),
    separatorsOf, described.valued]
  rfl

/-! ## Points for pairs -/

/-- The second pieces have a point for each pair of the first, which begin at an offset, and no
other character of the first begins a pair. -/
inductive Pointed (isPair : Nat → Prop) :
    (offset : Nat) → List Lexis.Piece → List Lexis.Piece → Prop where
  | nil {offset : Nat} : Pointed isPair offset [] []
  | gap {offset : Nat} {gap : Gap} {rest joined : List Lexis.Piece}
      (none : ∀ place, offset ≤ place → place < offset + gap.written.length → ¬ isPair place)
      (further : Pointed isPair (offset + gap.written.length) rest joined) :
      Pointed isPair offset (.gap gap :: rest) (.gap gap :: joined)
  | word {offset : Nat} {word : Lexis.Word} {rest joined : List Lexis.Piece}
      (none : ∀ place, offset ≤ place → place < offset + word.written.length → ¬ isPair place)
      (further : Pointed isPair (offset + word.written.length) rest joined) :
      Pointed isPair offset (.word word :: rest) (.word word :: joined)
  | pair {offset : Nat} {first second : Lexis.Word} {rest joined : List Lexis.Piece}
      (firstColon : first.isColon = true) (secondColon : second.isColon = true)
      (here : isPair offset) (further : Pointed isPair (offset + 2) rest joined) :
      Pointed isPair offset (.word first :: .word second :: rest) (.word .point :: joined)
  | group {offset : Nat} {delimiter : Delimiter} {inner joinedInner rest joined : List Lexis.Piece}
      (opening : ¬ isPair offset) (inside : Pointed isPair (offset + 1) inner joinedInner)
      (closing : ¬ isPair (offset + 1 + (writtenAll inner).length))
      (further : Pointed isPair (offset + 1 + (writtenAll inner).length + 1) rest joined) :
      Pointed isPair offset (.group delimiter inner :: rest)
        (.group delimiter joinedInner :: joined)

theorem offset_behind_colons (start : Position) (firstColon : first.isColon = true)
    (secondColon : second.isColon = true) :
    ((start.after first.written).after second.written).offset = start.offset + 2 := by
  rw [Word.written_of_isColon firstColon, Word.written_of_isColon secondColon,
    Position.after_offset, Position.after_offset]
  rfl

end

theorem offset_behind_group (start : Position) (delimiter : Delimiter)
    (inner : List Lexis.Piece) :
    (start.after (Lexis.Piece.group delimiter inner).written).offset =
      start.offset + 1 + (writtenAll inner).length + 1 := by
  rw [Position.after_offset, written_group, List.length_cons, List.length_append,
    List.length_singleton]
  omega

/-- Among the offsets of pieces, the pairs are the separators of their tokens. -/
def Marks (isPair : Nat → Prop) (subscript : Bool) (before : Option Token) (start : Position)
    (pieces : List Lexis.Piece) : Prop :=
  ∀ offset, start.offset ≤ offset → offset < start.offset + (writtenAll pieces).length →
    (isPair offset ↔ offset ∈ separatorsIn subscript before (tokensAll start pieces))

namespace Marks

variable {isPair : Nat → Prop} {place : Surroundings} {subscript : Bool}
  {before later : Option Token} {start : Position} {rest : List Lexis.Piece}

/-- A piece without separators has no pairs. -/
theorem behindPlain {piece : Lexis.Piece}
    (marks : Marks isPair subscript before start (piece :: rest))
    (plain : separatorsIn subscript before (tokensAll start (piece :: rest)) =
      separatorsIn subscript later (tokensAll (start.after piece.written) rest)) :
    (∀ offset, start.offset ≤ offset → offset < start.offset + piece.written.length →
      ¬ isPair offset) ∧ Marks isPair subscript later (start.after piece.written) rest := by
  have length : (writtenAll (piece :: rest)).length =
      piece.written.length + (writtenAll rest).length := by
    rw [writtenAll_cons, List.length_append]
  have behindOffset := start.after_offset piece.written
  unfold Marks at marks ⊢
  rw [plain, length] at marks
  constructor
  · intro offset begins ends isPair
    have inside := separatorsIn_inside rest _ ((marks offset begins (by omega)).mp isPair)
    omega
  · intro offset begins ends
    exact marks offset (by omega) (by omega)

/-- Two colons that join a path are a pair, and the rest goes on behind both. -/
theorem behindPair {first second : Lexis.Word} (described : Describes place before start)
    (firstColon : first.isColon = true) (secondColon : second.isColon = true)
    (joins : place.joins first (.word second :: rest) = true)
    (marks : Marks isPair place.subscript before start (.word first :: .word second :: rest)) :
    isPair start.offset ∧
      Marks isPair place.subscript
        (some (second.token ⟨start.after first.written,
          (start.after first.written).after second.written⟩))
        ((start.after first.written).after second.written) rest := by
  have behindOffset := offset_behind_colons start firstColon secondColon
  have length : (writtenAll (.word first :: .word second :: rest)).length =
      2 + (writtenAll rest).length := by
    simp only [writtenAll_cons, written_word, Word.written_of_isColon firstColon,
      Word.written_of_isColon secondColon, List.length_append, List.length_singleton]
    omega
  unfold Marks at marks ⊢
  rw [described.separatorsIn_pair firstColon joins, length] at marks
  constructor
  · exact (marks start.offset (Nat.le_refl _) (by omega)).mpr List.mem_cons_self
  · intro offset begins ends
    rw [marks offset (by omega) (by omega), List.mem_cons, or_iff_right (by omega)]

/-- A pair is one of the inner pieces or one of the rest, so neither bracket begins one. -/
theorem aroundGroup {delimiter : Delimiter} {inner : List Lexis.Piece}
    (described : Describes place before start)
    (marks : Marks isPair place.subscript before start (.group delimiter inner :: rest)) :
    ¬ isPair start.offset ∧
      Marks isPair (place.inside delimiter).subscript none (start.next delimiter.opening) inner ∧
      ¬ isPair (start.offset + 1 + (writtenAll inner).length) ∧
      Marks isPair place.subscript (some (groupToken delimiter inner start))
        (start.after (Lexis.Piece.group delimiter inner).written) rest := by
  have nextOffset := start.next_offset delimiter.opening
  have behindOffset := offset_behind_group start delimiter inner
  have length : (writtenAll (.group delimiter inner :: rest)).length =
      1 + (writtenAll inner).length + 1 + (writtenAll rest).length := by
    rw [Position.after_offset] at behindOffset
    rw [writtenAll_cons, List.length_append]
    omega
  unfold Marks at marks ⊢
  rw [described.separatorsIn_group, length] at marks
  simp only [List.mem_append] at marks
  have bracket : ∀ offset, offset = start.offset ∨
      offset = start.offset + 1 + (writtenAll inner).length → ¬ isPair offset := by
    intro offset either isPair
    rcases (marks offset (by omega) (by omega)).mp isPair with inInner | inRest
    · have inside := separatorsIn_inside inner _ inInner
      omega
    · have inside := separatorsIn_inside rest _ inRest
      omega
  refine ⟨bracket _ (.inl rfl), ?_, bracket _ (.inr rfl), ?_⟩
  · intro offset begins ends
    refine (marks offset (by omega) (by omega)).trans (or_iff_left ?_)
    intro inRest
    have inside := separatorsIn_inside rest _ inRest
    omega
  · intro offset begins ends
    refine (marks offset (by omega) (by omega)).trans (or_iff_right ?_)
    intro inInner
    have inside := separatorsIn_inside inner _ inInner
    omega

end Marks

/-- Joined pieces have a point where the separators of their tokens are. -/
theorem pointed_joinAll {isPair : Nat → Prop} (place : Surroundings) (pieces : List Lexis.Piece)
    {before : Option Token} {start : Position} (described : Describes place before start)
    (marks : Marks isPair place.subscript before start pieces) :
    Pointed isPair start.offset pieces (joinAll place pieces) := by
  fun_induction joinAll place pieces generalizing before start with
  | case1 => exact .nil
  | case2 place gap rest ih =>
    obtain ⟨none, further⟩ := marks.behindPlain rfl
    refine .gap none ?_
    rw [← Position.after_offset]
    exact ih (described.behindGap gap) further
  | case3 place delimiter inner rest innerHypothesis restHypothesis =>
    obtain ⟨opening, inside, closing, further⟩ := marks.aroundGroup described
    refine .group opening ?_ closing ?_
    · rw [← start.next_offset delimiter.opening]
      exact innerHypothesis (.nothing _ _) inside
    · rw [← offset_behind_group start delimiter inner]
      exact restHypothesis (.behindGroup place delimiter _ _ start _) further
  | case4 place first rest joins ih =>
    have joinsWords := joins
    simp only [Surroundings.joins, Bool.and_eq_true] at joinsWords
    obtain ⟨-, ⟨-, firstColon⟩, ahead⟩ := joinsWords
    obtain ⟨second, behind, rfl, secondColon, -⟩ := exists_of_colonAndName ahead
    obtain ⟨here, further⟩ := marks.behindPair described firstColon secondColon joins
    refine .pair firstColon secondColon here ?_
    rw [← offset_behind_colons start firstColon secondColon]
    -- Pieces go on behind a point and tokens behind the second colon, which leave the same place.
    have describedBehind := Describes.behindWord place (start.after first.written) second
    rw [behindWord_of_isColon secondColon] at describedBehind
    exact ih describedBehind further
  | case5 place word rest keeps ih =>
    have plain := described.separatorsIn_word word rest
    rw [if_neg keeps, List.nil_append] at plain
    obtain ⟨none, further⟩ := marks.behindPlain plain
    refine .word none ?_
    rw [← Position.after_offset]
    exact ih (.behindWord place start word) further

section

variable {offset : Nat} {isPair : Nat → Prop} {pieces joined : List Lexis.Piece}

theorem Pointed.replaced (pointed : Pointed isPair offset pieces joined) :
    Replaced isPair offset (writtenAll pieces) (writtenAll joined) := by
  induction pointed with
  | nil => exact .nil
  | gap none _ ih | word none _ ih => exact (Replaced.refl _ none).append ih
  | pair firstColon secondColon here _ ih =>
    rw [writtenAll_cons, writtenAll_cons, writtenAll_cons, written_word, written_word,
      written_word, Word.written_of_isColon firstColon, Word.written_of_isColon secondColon]
    exact .pair here ih
  | group opening _ closing _ innerHypothesis restHypothesis =>
    simp only [writtenAll_cons, written_group, List.cons_append, List.append_assoc,
      List.nil_append]
    exact .same opening (innerHypothesis.append (.same closing restHypothesis))

/-- The second tokens are the first with a point for each pair of colons. -/
inductive Rewritten (isPair : Nat → Prop) : List Token → List Token → Prop where
  | nil : Rewritten isPair [] []
  | pair {first second place : Span} {rest written : List Token} (here : isPair first.start.offset)
      (further : Rewritten isPair rest written) :
      Rewritten isPair (.mark ':' first :: .mark ':' second :: rest) (.mark '.' place :: written)
  | mark {character : Char} {span place : Span} {rest written : List Token}
      (none : ¬ isPair span.start.offset) (further : Rewritten isPair rest written) :
      Rewritten isPair (.mark character span :: rest) (.mark character place :: written)
  | identifier {name : String} {span place : Span} {rest written : List Token}
      (further : Rewritten isPair rest written) :
      Rewritten isPair (.identifier name span :: rest) (.identifier name place :: written)
  | number {text : String} {span place : Span} {rest written : List Token}
      (further : Rewritten isPair rest written) :
      Rewritten isPair (.number text span :: rest) (.number text place :: written)
  | quoted {value raw : String} {span place : Span} {rest written : List Token}
      (further : Rewritten isPair rest written) :
      Rewritten isPair (.quoted value raw span :: rest) (.quoted value raw place :: written)
  | group {delimiter : Delimiter} {raw writtenRaw : String} {span place : Span}
      {inner writtenInner rest written : List Token} (inside : Rewritten isPair inner writtenInner)
      (further : Rewritten isPair rest written) :
      Rewritten isPair (.group delimiter raw inner span :: rest)
        (.group delimiter writtenRaw writtenInner place :: written)

theorem Pointed.rewritten (pointed : Pointed isPair offset pieces joined) {start place : Position}
    (begins : start.offset = offset) :
    Rewritten isPair (tokensAll start pieces) (tokensAll place joined) := by
  induction pointed generalizing start place with
  | nil =>
    rw [tokensAll, tokensAll]
    exact .nil
  | gap none _ ih =>
    rw [tokensAll, tokensAll, Piece.tokens, Piece.tokens]
    exact ih (by rw [Position.after_offset, begins]; rfl)
  | @word offset word rest joined none _ ih =>
    have further : Rewritten isPair (tokensAll (start.after word.written) rest)
        (tokensAll (place.after word.written) joined) :=
      ih (by rw [Position.after_offset, begins])
    rw [tokensAll, tokensAll, Piece.tokens, Piece.tokens]
    cases word with
    | identifier => exact .identifier further
    | number => exact .number further
    | quoted => exact .quoted further
    | mark character legal =>
      have notHere : ¬ isPair start.offset := by
        rw [begins]
        exact none offset (Nat.le_refl _) (by simp [Word.written])
      exact .mark notHere further
  | @pair offset first second rest joined firstColon secondColon here _ ih =>
    have further : Rewritten isPair
        (tokensAll ((start.after first.written).after second.written) rest)
        (tokensAll (place.after Word.point.written) joined) :=
      ih (by rw [offset_behind_colons start firstColon secondColon, begins])
    simp only [tokensAll, Piece.tokens, written_word, List.singleton_append,
      Word.token_of_isColon firstColon, Word.token_of_isColon secondColon]
    exact .pair (by rwa [begins]) further
  | @group offset delimiter inner joinedInner rest joined opening _ closing _ innerHypothesis
      restHypothesis =>
      have inside : Rewritten isPair (tokensAll (start.next delimiter.opening) inner)
          (tokensAll (place.next delimiter.opening) joinedInner) :=
        innerHypothesis (by rw [Position.next_offset, begins])
      have further : Rewritten isPair
          (tokensAll (start.after (Lexis.Piece.group delimiter inner).written) rest)
          (tokensAll (place.after (Lexis.Piece.group delimiter joinedInner).written) joined) :=
        restHypothesis (by rw [offset_behind_group, begins])
      rw [tokensAll, tokensAll, Piece.tokens, Piece.tokens]
      exact .group inside further

end

/-! ## Groups -/

/-- The pieces inside a group, joined; nothing stands before them. -/
def joinedInside (inner : List Lexis.Piece) : List Lexis.Piece :=
  joinAll ⟨false, false, false⟩ inner

section

variable (delimiter : Delimiter) (inner : List Lexis.Piece) (start : Position)

theorem tokensAll_group :
    tokensAll start [.group delimiter inner] = [groupToken delimiter inner start] := by
  rw [tokensAll, tokensAll, Piece.tokens]
  rfl

/-- In a group of pieces points stand for its pairs of colons. -/
theorem pointed_group :
    Pointed (PathPair (tokensAll (start.next delimiter.opening) inner)) start.offset
      [.group delimiter inner] [.group delimiter (joinedInside inner)] := by
  have nextOffset := start.next_offset delimiter.opening
  refine .group ?_ ?_ ?_ .nil
  · intro isPair
    have inside := separatorsIn_inside inner _ (mem_separatorsIn_iff.mpr isPair)
    omega
  · rw [← nextOffset]
    exact pointed_joinAll _ inner (.nothing false _) fun _ _ _ => mem_separatorsIn_iff.symm
  · intro isPair
    have inside := separatorsIn_inside inner _ (mem_separatorsIn_iff.mpr isPair)
    omega

/-- The host code of a group is what its joined pieces write. -/
theorem hostCode_groupToken :
    hostCode (groupToken delimiter inner start) =
      String.ofList (Lexis.Piece.group delimiter (joinedInside inner)).written := by
  have replaced := (pointed_group delimiter inner start).replaced
  have pairs : PathPair (tokensAll (start.next delimiter.opening) inner) =
      (· ∈ separatorsOf false (groupToken delimiter inner start)) := by
    funext offset
    rw [groupToken, separatorsOf, mem_separatorsIn_iff]
  rw [pairs, writtenAll_cons, writtenAll_cons, writtenAll_nil, List.append_nil,
    List.append_nil] at replaced
  rw [hostCode, ← replaced.writePoints_eq]
  congr 2
  exact String.toList_ofList

/-- Joined pieces are tokenized again, as one group. -/
theorem tokenize_joined {behind : List Char}
    (longest : LongestAll (delimiter.closing :: behind) inner) :
    tokenize (String.ofList (Lexis.Piece.group delimiter (joinedInside inner)).written) =
      .ok ⟨[groupToken delimiter (joinedInside inner) .origin],
        (groupToken delimiter (joinedInside inner) .origin).span.stop⟩ := by
  have longestJoined : LongestAll behind [.group delimiter (joinedInside inner)] :=
    ⟨longestAll_joinAll _ _ inner longest, trivial⟩
  have read := tokenize_pieces longestJoined
  rwa [writtenAll_cons, writtenAll_nil, List.append_nil, tokensAll_group] at read

end

/-- The host code of a group has a point for each pair of colons that joins a path, and is otherwise
the group as written. It is tokenized as one group, whose tokens are those of the group with a point
for each pair, and this group is its own host code. -/
theorem hostCode_joins_paths {source : String} {tokens : Tokens}
    (read : tokenize source = .ok tokens) {start stop : Nat} {level : List Token}
    (found : tokens.Level start stop level) {delimiter : Delimiter} {raw : String}
    {children : List Token} {span : Span}
    (member : .group delimiter raw children span ∈ level) :
    Replaced (PathPair children) span.start.offset raw.toList
        (hostCode (.group delimiter raw children span)).toList ∧
      ∃ rewritten : Token,
        tokenize (hostCode (.group delimiter raw children span)) =
          .ok ⟨[rewritten], rewritten.span.stop⟩ ∧
        rewritten.raw = hostCode (.group delimiter raw children span) ∧
        Rewritten (PathPair children) [.group delimiter raw children span] [rewritten] ∧
        hostCode rewritten = hostCode (.group delimiter raw children span) := by
  obtain ⟨layout, longest, -, rfl⟩ := tokenize_eq_ok.mp read
  obtain ⟨inner, place, behind, innerLongest, own⟩ := found.exists_group longest member
  cases own
  have pointed := pointed_group delimiter inner place
  have code := hostCode_groupToken delimiter inner place
  have again := hostCode_groupToken delimiter (joinedInside inner) .origin
  rw [groupToken] at code
  rw [joinedInside, joinedInside, joinAll_joinAll] at again
  refine ⟨?_, groupToken delimiter (joinedInside inner) .origin, ?_, ?_, ?_, ?_⟩
  · rw [code, String.toList_ofList, String.toList_ofList]
    simpa using pointed.replaced
  · rw [code]
    exact tokenize_joined delimiter inner innerLongest
  · rw [code]
    rfl
  · have rewritten : Rewritten _ (tokensAll place [.group delimiter inner])
        (tokensAll .origin [.group delimiter (joinedInside inner)]) := pointed.rewritten rfl
    rw [tokensAll_group, tokensAll_group] at rewritten
    exact rewritten
  · rw [code]
    exact again

/-- Paths with a gap behind the colons, in and behind a subscript, and colons that a gap keeps from
joining. -/
def nestedPaths : String := "\x7b xs[a::b] + f(Link:: Icon, x ::y) \x7d"

theorem nestedPaths_are_joined :
    ∃ tokens delimiter raw children span, tokenize nestedPaths = .ok tokens ∧
      .group delimiter raw children span ∈ tokens.toList ∧
      Replaced (PathPair children) span.start.offset raw.toList
        "\x7b xs[a::b] + f(Link. Icon, x ::y) \x7d".toList ∧
      ∃ rewritten : Token,
        tokenize "\x7b xs[a::b] + f(Link. Icon, x ::y) \x7d" =
          .ok ⟨[rewritten], rewritten.span.stop⟩ ∧
        Rewritten (PathPair children) [.group delimiter raw children span] [rewritten] := by
  have reads : yields (fun tokens => tokens.body.map (fun token => (token.kind, hostCode token)) ==
      [(.group, "\x7b xs[a::b] + f(Link. Icon, x ::y) \x7d")]) (tokenize nestedPaths) = true := by
    decide +kernel
  obtain ⟨⟨body, stop⟩, read, coded⟩ := exists_of_yields reads
  obtain ⟨token, rfl, described⟩ := List.map_eq_singleton_iff.mp (beq_iff_eq.mp coded)
  cases token with
  | group delimiter raw children span =>
    have code : hostCode (.group delimiter raw children span) =
        "\x7b xs[a::b] + f(Link. Icon, x ::y) \x7d" := congrArg Prod.snd described
    obtain ⟨replaced, rewritten, again, -, tree, -⟩ :=
      hostCode_joins_paths read .whole List.mem_cons_self
    rw [code] at replaced again
    exact ⟨_, delimiter, raw, children, span, read, List.mem_cons_self, replaced, rewritten,
      again, tree⟩
  | _ => cases congrArg Prod.fst described

end Capture

end TypedMarkup
