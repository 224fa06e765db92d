import TypedMarkup.Host.Failure
import TypedMarkup.Proofs.Markup.Placing
import TypedMarkup.Proofs.Mirroring
import TypedMarkup.Proofs.Token.Cursor

/-!
Contract: token sequences that differ in places only.

Owns: `Token.Alike`, which compares tokens apart from their places, `Token.RunAlike`, which compares
sequences of them and which neighbours are adjacent, and what cursors over such sequences have in
common.

Places are compared after each side has moved its own, so one relation serves both for a text that
stands somewhere else and for places that do not matter. What is inside of a group is compared by
the host code of the group.
-/

namespace TypedMarkup

/-! ## Tokens that are alike -/

/-- Two tokens are the same apart from their places, which agree after being moved. -/
inductive Token.Alike (left right : Position → Position) : Token → Token → Prop where
  | identifier (name : String) {span place : Span}
      (moved : span.relocate left = place.relocate right) :
      Alike left right (.identifier name span) (.identifier name place)
  | number (text : String) {span place : Span}
      (moved : span.relocate left = place.relocate right) :
      Alike left right (.number text span) (.number text place)
  | quoted (value raw : String) {span place : Span}
      (moved : span.relocate left = place.relocate right) :
      Alike left right (.quoted value raw span) (.quoted value raw place)
  | mark (character : Char) {span place : Span}
      (moved : span.relocate left = place.relocate right) :
      Alike left right (.mark character span) (.mark character place)
  | keyword (word : Keyword) {span place : Span}
      (moved : span.relocate left = place.relocate right) :
      Alike left right (.keyword word span) (.keyword word place)
  | group (delimiter : Delimiter) (raw : String) {inner others : List Token} {span place : Span}
      (code : Capture.hostCode (.group delimiter raw inner span) =
        Capture.hostCode (.group delimiter raw others place))
      (moved : span.relocate left = place.relocate right) :
      Alike left right (.group delimiter raw inner span) (.group delimiter raw others place)
  | opening (delimiter : Delimiter) {span place : Span}
      (moved : span.relocate left = place.relocate right) :
      Alike left right (.opening delimiter span) (.opening delimiter place)
  | closing (delimiter : Delimiter) {span place : Span}
      (moved : span.relocate left = place.relocate right) :
      Alike left right (.closing delimiter span) (.closing delimiter place)
  | endOfInput {position place : Position} (moved : left position = right place) :
      Alike left right (.endOfInput position) (.endOfInput place)

/-- Whether each token of a sequence ends where the next one begins. -/
def adjacency (tokens : List Token) : List Bool :=
  List.zipWith (fun before after => before.span.stop.offset == after.span.start.offset)
    tokens tokens.tail

/-- Two sequences have tokens that are alike, and adjacent ones in the same places. -/
structure Token.RunAlike (left right : Position → Position) (tokens others : List Token) :
    Prop where
  each : List.Forall₂ (Token.Alike left right) tokens others
  gaps : adjacency tokens = adjacency others

/-- Two cursors stand at the same place of sequences that are alike. -/
structure Cursor.Alike (left right : Position → Position) (cursor other : Cursor) : Prop where
  passed : List.Forall₂ (Token.Alike left right) cursor.passed other.passed
  ahead : Token.RunAlike left right cursor.ahead other.ahead
  stop : left cursor.stop = right other.stop

/-- Two errors are of one kind, with one message and one hint. -/
structure CompileError.SaysAlike (error other : CompileError) : Prop where
  kind : error.cause.kindName = other.cause.kindName
  message : error.message = other.message
  hint : error.cause.hint = other.cause.hint

section

variable {left right : Position → Position}

namespace Token

variable {token other : Token} {tokens others : List Token}

theorem relocate_alike {first second : Position → Position} (firstShifts : Position.Shifts first)
    (secondShifts : Position.Shifts second)
    (agree : ∀ position, left (first position) = right (second position)) (token : Token) :
    Token.Alike left right (token.relocate first) (token.relocate second) := by
  have moved (span : Span) :
      (span.relocate first).relocate left = (span.relocate second).relocate right :=
    congrArg₂ Span.mk (agree span.start) (agree span.stop)
  have code := (Capture.hostCode_relocate firstShifts token).trans
    (Capture.hostCode_relocate secondShifts token).symm
  cases token with
  | identifier name span => rw [relocate, relocate]; exact .identifier name (moved span)
  | number text span => rw [relocate, relocate]; exact .number text (moved span)
  | quoted value raw span => rw [relocate, relocate]; exact .quoted value raw (moved span)
  | mark character span => rw [relocate, relocate]; exact .mark character (moved span)
  | keyword word span => rw [relocate, relocate]; exact .keyword word (moved span)
  | group delimiter raw inner span =>
    rw [relocate, relocate] at code ⊢
    exact .group delimiter raw code (moved span)
  | opening delimiter span => rw [relocate, relocate]; exact .opening delimiter (moved span)
  | closing delimiter span => rw [relocate, relocate]; exact .closing delimiter (moved span)
  | endOfInput position => rw [relocate, relocate]; exact .endOfInput (agree position)

theorem adjacency_relocate {move : Position → Position} (shifts : Position.Shifts move)
    (tokens : List Token) : adjacency (tokens.map (Token.relocate move)) = adjacency tokens := by
  obtain ⟨distance, shifts⟩ := shifts
  unfold adjacency
  rw [← List.map_tail, List.zipWith_map]
  congr 1
  funext before after
  rw [span_relocate, span_relocate, Span.relocate, Span.relocate, shifts, shifts, Bool.eq_iff_iff,
    beq_iff_eq, beq_iff_eq, Nat.add_right_cancel_iff]

/-- A sequence at another place. -/
theorem runAlike_relocate {move : Position → Position} (shifts : Position.Shifts move)
    (tokens : List Token) : RunAlike move id tokens (tokens.map (Token.relocate move)) := by
  refine ⟨List.forall₂_map_right_iff.mpr (List.forall₂_same.mpr ?_),
    (adjacency_relocate shifts tokens).symm⟩
  intro token _
  have alike : Token.Alike move id (token.relocate id) (token.relocate move) :=
    relocate_alike Position.shifts_id shifts (fun _ => rfl) token
  rwa [relocate_id] at alike

section

variable (alike : Token.Alike left right token other)

include alike

theorem Alike.moved_span : token.span.relocate left = other.span.relocate right := by
  cases alike with
  | endOfInput moved => exact congrArg₂ Span.mk moved moved
  | _ => assumption

theorem Alike.describe_eq : token.describe = other.describe := by
  cases alike with
  | group delimiter => cases delimiter <;> rfl
  | _ => rfl

theorem Alike.isMark_eq (character : Char) : token.isMark character = other.isMark character := by
  cases alike <;> rfl

theorem Alike.isIdentifier_eq : token.isIdentifier = other.isIdentifier := by
  cases alike <;> rfl

theorem Alike.isGroup_eq (delimiter : Delimiter) :
    token.isGroup delimiter = other.isGroup delimiter := by
  cases alike <;> rfl

theorem Alike.hostCode_eq (isGroup : ∃ delimiter, other.isGroup delimiter) :
    Capture.hostCode token = Capture.hostCode other := by
  obtain ⟨delimiter, isGroup⟩ := isGroup
  cases alike with
  | group _ _ code => exact code
  | _ => exact absurd isGroup Bool.false_ne_true

theorem Alike.symm : Token.Alike right left other token := by
  cases alike with
  | identifier name moved => exact .identifier name moved.symm
  | number text moved => exact .number text moved.symm
  | quoted value raw moved => exact .quoted value raw moved.symm
  | mark character moved => exact .mark character moved.symm
  | keyword word moved => exact .keyword word moved.symm
  | group delimiter raw code moved => exact .group delimiter raw code.symm moved.symm
  | opening delimiter moved => exact .opening delimiter moved.symm
  | closing delimiter moved => exact .closing delimiter moved.symm
  | endOfInput moved => exact .endOfInput moved.symm

end

theorem exists_mark_across {character : Char} {span : Span}
    (each : List.Forall₂ (Token.Alike left right) (.mark character span :: tokens) others) :
    ∃ place more, others = .mark character place :: more ∧
      List.Forall₂ (Token.Alike left right) tokens more := by
  obtain ⟨_, more, here, further, rfl⟩ := List.forall₂_cons_left_iff.mp each
  cases here with
  | @mark _ _ place _ => exact ⟨place, more, rfl, further⟩

/-- A mark with a word behind it goes on a name or a path. -/
theorem exists_part_across {character : Char} {name : String} {first span : Span}
    (each : List.Forall₂ (Token.Alike left right)
      (.mark character first :: .identifier name span :: tokens) others) :
    ∃ firstPlace place more,
      others = .mark character firstPlace :: .identifier name place :: more ∧
        span.relocate left = place.relocate right := by
  obtain ⟨firstPlace, _, rfl, behind⟩ := exists_mark_across each
  obtain ⟨_, more, here, -, rfl⟩ := List.forall₂_cons_left_iff.mp behind
  cases here with
  | @identifier _ _ place moved => exact ⟨firstPlace, place, more, rfl, moved⟩

theorem forall₂_symm (each : List.Forall₂ (Token.Alike left right) tokens others) :
    List.Forall₂ (Token.Alike right left) others tokens :=
  each.flip.imp fun _ _ => Alike.symm

theorem RunAlike.tail (alike : RunAlike left right (token :: tokens) (other :: others)) :
    RunAlike left right tokens others := by
  obtain ⟨each, gaps⟩ := alike
  refine ⟨(List.forall₂_cons.mp each).2, ?_⟩
  cases tokens <;> cases others <;> simp_all [adjacency]

theorem RunAlike.adjacent_iff {next otherNext : Token}
    (alike : RunAlike left right (token :: next :: tokens) (other :: otherNext :: others)) :
    token.span.stop.offset = next.span.start.offset ↔
      other.span.stop.offset = otherNext.span.start.offset := by
  have gaps := alike.gaps
  simp only [adjacency, List.tail_cons, List.zipWith_cons_cons, List.cons.injEq] at gaps
  rw [← beq_iff_eq, gaps.1, beq_iff_eq]

end Token

/-! ## Cursors that are alike -/

namespace Cursor.Alike

variable {cursor other : Cursor} (alike : Cursor.Alike left right cursor other)

include alike

theorem peek (offset : Nat) : Token.Alike left right (cursor.peek offset) (other.peek offset) := by
  have each := alike.ahead.each
  unfold Cursor.peek
  generalize cursor.ahead = tokens at each
  generalize other.ahead = others at each
  induction each generalizing offset with
  | nil => exact .endOfInput alike.stop
  | cons here _ ih =>
    cases offset with
    | zero => exact here
    | succ offset => exact ih offset

theorem current : Token.Alike left right cursor.current other.current :=
  alike.peek 0

theorem forward : Cursor.Alike left right cursor.forward other.forward := by
  obtain ⟨source, passed, ahead, stop⟩ := cursor
  obtain ⟨otherSource, otherPassed, otherAhead, otherStop⟩ := other
  obtain ⟨passedAlike, aheadAlike, stopAlike⟩ := alike
  have each := aheadAlike.each
  cases each with
  | nil => exact ⟨passedAlike, aheadAlike, stopAlike⟩
  | cons here _ => exact ⟨.cons here passedAlike, aheadAlike.tail, stopAlike⟩

theorem atMark_eq (character : Char) (offset : Nat) :
    cursor.atMark character offset = other.atMark character offset :=
  (alike.peek offset).isMark_eq character

theorem length_eq : cursor.ahead.length = other.ahead.length :=
  alike.ahead.each.length_eq

theorem atEnd_eq : cursor.atEnd = other.atEnd := by
  have each := alike.ahead.each
  unfold Cursor.atEnd
  generalize cursor.ahead = tokens at each
  generalize other.ahead = others at each
  cases each <;> rfl

theorem previous : Token.Alike left right cursor.previous other.previous := by
  have passed := alike.passed
  unfold Cursor.previous
  generalize cursor.passed = tokens at passed
  generalize other.passed = others at passed
  cases passed with
  | nil => exact alike.current
  | cons here _ => exact here

theorem unexpected (expected : List String) :
    (cursor.unexpected expected).SaysAlike (other.unexpected expected) := by
  unfold Cursor.unexpected
  rw [alike.atEnd_eq]
  split
  · exact ⟨rfl, rfl, rfl⟩
  · refine ⟨rfl, ?_, ?_⟩
    · change _ ++ cursor.current.describe = _ ++ other.current.describe
      rw [alike.current.describe_eq]
    · change nodeHint expected cursor.current = nodeHint expected other.current
      unfold nodeHint
      rw [alike.current.isIdentifier_eq]

theorem expectMark (character : Char) (expected : List String) :
    Corresponds CompileError.SaysAlike
      (fun found there => Token.Alike left right found.1 there.1 ∧
        Cursor.Alike left right found.2 there.2)
      (cursor.expectMark character expected) (other.expectMark character expected) := by
  unfold Cursor.expectMark
  rw [alike.atMark_eq]
  split
  · exact ⟨alike.current, alike.forward⟩
  · exact alike.unexpected expected

/-- Reading an identifier. What stands behind it is compared together with it, since a name goes on
only with what is adjacent. -/
theorem expectIdentifier (expected : List String) :
    Corresponds CompileError.SaysAlike
      (fun found there => found.1 = there.1 ∧
        found.2.1.relocate left = there.2.1.relocate right ∧
        Cursor.Alike left right found.2.2 there.2.2 ∧
        Token.RunAlike left right (.identifier found.1 found.2.1 :: found.2.2.ahead)
          (.identifier there.1 there.2.1 :: there.2.2.ahead))
      (cursor.expectIdentifier expected) (other.expectIdentifier expected) := by
  have current := alike.current
  unfold Cursor.expectIdentifier
  split
  · next name span found =>
    rw [found] at current
    generalize there : other.current = token at current
    cases current with
    | identifier name moved =>
      obtain ⟨rest, begins⟩ := exists_ahead_of_current found (by simp)
      obtain ⟨more, otherBegins⟩ := exists_ahead_of_current there (by simp)
      have run := alike.ahead
      rw [begins, otherBegins] at run
      refine ⟨rfl, moved, alike.forward, ?_⟩
      rwa [forward_eq_past begins, forward_eq_past otherBegins]
  · next noWord =>
    generalize other.current = token at current
    generalize cursor.current = found at current noWord
    cases current with
    | identifier name => exact absurd rfl (noWord name _)
    | _ => exact alike.unexpected expected

end Cursor.Alike

end

end TypedMarkup
