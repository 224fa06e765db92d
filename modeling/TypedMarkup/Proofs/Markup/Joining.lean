import TypedMarkup.Host.Reserved
import TypedMarkup.Proofs.Token.LongestMatch

/-!
Contract: joining the paths among the pieces of a text.

Owns: `Lexis.joinAll`, which writes a point for each two colons that join a path, that the words of
joined pieces are still the longest in their places, and that joining again changes nothing.

What decides about two colons is kept in `Lexis.Surroundings` on the way through the pieces: a gap
may stand before a bracket that is a subscript, but not before the colons of a path.
-/

namespace TypedMarkup

namespace Lexis

variable {place : Surroundings} {word : Word} {text : List Char}

/-! ## Joining the pieces of a text -/

namespace Word

def isName : Word → Bool
  | identifier _ _ _ _ => true
  | _ => false

def isColon : Word → Bool
  | mark character _ => character == ':'
  | _ => false

/-- Whether a bracket behind a word is a subscript. -/
def hasValue : Word → Bool
  | identifier first tail _ _ => !Host.isReservedWord (String.ofList (first :: tail))
  | number _ _ _ _ => true
  | quoted _ _ => true
  | mark _ _ => false

def point : Word := mark '.' (by decide)

end Word

/-- Whether the first word behind gaps is a name. -/
def nextIsName : List Piece → Bool
  | .gap _ :: rest => nextIsName rest
  | .word word :: _ => word.isName
  | _ => false

/-- Whether a colon stands first, and a name behind it. -/
def colonAndName : List Piece → Bool
  | .word word :: rest => word.isColon && nextIsName rest
  | _ => false

/-- What is left of a place: whether the pieces are the content of a subscript, whether a bracket
would be a subscript here, and whether a name stands directly before the place. -/
structure Surroundings where
  subscript : Bool
  valued : Bool
  named : Bool

namespace Surroundings

def behindGap (place : Surroundings) : Surroundings :=
  { place with named := false }

def behindWord (place : Surroundings) (word : Word) : Surroundings :=
  { place with valued := word.hasValue, named := word.isName }

def behindGroup (place : Surroundings) (delimiter : Delimiter) : Surroundings :=
  { place with valued := delimiter != .brace, named := false }

def inside (place : Surroundings) (delimiter : Delimiter) : Surroundings :=
  ⟨delimiter == .bracket && place.valued, false, false⟩

/-- Whether a word is the first of two colons that join a path. -/
def joins (place : Surroundings) (word : Word) (rest : List Piece) : Bool :=
  !place.subscript && (place.named && word.isColon && colonAndName rest)

end Surroundings

/-- The pieces with a point for each two colons that join a path. -/
def joinAll (place : Surroundings) : List Piece → List Piece
  | [] => []
  | .gap gap :: rest => .gap gap :: joinAll place.behindGap rest
  | .group delimiter inner :: rest =>
    .group delimiter (joinAll (place.inside delimiter) inner) ::
      joinAll (place.behindGroup delimiter) rest
  | .word word :: rest =>
    if place.joins word rest then
      .word .point :: joinAll (place.behindWord .point) rest.tail
    else .word word :: joinAll (place.behindWord word) rest
termination_by pieces => sizeOf pieces
decreasing_by
  · simp
  · simp; omega
  · simp
  · have shorter : sizeOf rest.tail ≤ sizeOf rest := by cases rest <;> simp
    simp
    omega
  · simp

theorem exists_of_colonAndName {pieces : List Piece} (joins : colonAndName pieces = true) :
    ∃ word rest, pieces = .word word :: rest ∧ word.isColon = true ∧ nextIsName rest = true := by
  unfold colonAndName at joins
  split at joins
  · next word rest => exact ⟨word, rest, rfl, Bool.and_eq_true_iff.mp joins⟩
  · cases joins

theorem Word.written_of_isColon (colon : word.isColon = true) :
    word.written = [':'] := by
  cases word with
  | mark character legal =>
    have same : character = ':' := by simpa [isColon] using colon
    rw [Word.written, Word.first, Word.tail, same]
  | _ => cases colon

/-! ## Joined words are the longest -/

/-- Whether text continues a number is told by its first two characters. -/
theorem splitNumber_eq_nil_iff :
    (Scan.splitNumber text).1 = [] ↔ ∀ character, text.head? = some character →
      continuesIdentifier character = false ∧
        ¬ (character = '.' ∧ (text.tail.head?.map Char.isDigit).getD false = true) := by
  cases text with
  | nil => simp [Scan.splitNumber]
  | cons character rest =>
    unfold Scan.splitNumber
    split
    · next goesOn =>
      rw [Bool.or_eq_true, Bool.and_eq_true, beq_iff_eq] at goesOn
      refine iff_of_false (List.cons_ne_nil _ _) fun stops => ?_
      obtain ⟨notContinues, notPoint⟩ := stops character rfl
      rcases goesOn with continues | point
      · cases continues.symm.trans notContinues
      · exact notPoint point
    · next stops =>
      rw [Bool.or_eq_true, Bool.and_eq_true, beq_iff_eq, not_or] at stops
      refine ⟨fun _ other same => ?_, fun _ => rfl⟩
      cases same
      exact ⟨Bool.eq_false_iff.mpr stops.1, stops.2⟩

theorem stops_iff {inClass : Char → Bool} :
    Stops inClass text ↔ ∀ character, text.head? = some character → inClass character = false := by
  cases text <;> simp [Stops]

theorem stops_of_takeWhile {inClass : Char → Bool}
    (none : text.takeWhile inClass = []) : Stops inClass text := by
  rintro character rest rfl
  simpa [List.takeWhile_cons] using none

section

variable (delimiter : Delimiter) (behind further : List Char)

/-- Joining changes the first character of pieces only where a name stands before them, and there to
a point. -/
theorem head?_joinAll (place : Surroundings) (pieces : List Piece) :
    (writtenAll (joinAll place pieces) ++ delimiter.closing :: further).head? =
        (writtenAll pieces ++ delimiter.closing :: behind).head? ∨
      place.named = true ∧
        (writtenAll (joinAll place pieces) ++ delimiter.closing :: further).head? = some '.' := by
  cases pieces with
  | nil =>
    rw [joinAll]
    exact .inl rfl
  | cons piece rest =>
    cases piece with
    | gap gap =>
      obtain ⟨first, others, written, -⟩ := gap.exists_written
      rw [joinAll]
      simp [written]
    | group inner pieces =>
      rw [joinAll]
      simp
    | word word =>
      rw [joinAll]
      split
      · next joins =>
        simp only [Surroundings.joins, Bool.and_eq_true] at joins
        exact .inr ⟨joins.2.1.1, rfl⟩
      · exact .inl (by simp [Word.written])

theorem stops_joinAll (place : Surroundings) (pieces : List Piece)
    (stops : Stops continuesIdentifier (writtenAll pieces ++ delimiter.closing :: behind)) :
    Stops continuesIdentifier
      (writtenAll (joinAll place pieces) ++ delimiter.closing :: further) := by
  rw [stops_iff] at stops ⊢
  intro character begins
  rcases head?_joinAll delimiter behind further place pieces with same | ⟨-, pointed⟩
  · exact stops character (same ▸ begins)
  · rw [pointed] at begins
    cases begins
    rfl

theorem Word.tail_of_point (pointed : word.first = '.') : word.tail = [] := by
  cases word with
  | identifier first tail begins | number first tail begins => cases pointed; cases begins
  | quoted quote items => cases quote <;> cases pointed
  | mark character legal => rfl

/-- Behind a point no pair can stand. -/
theorem head?_tail_joinAll (notNamed : place.named = false) {pieces : List Piece}
    (pointed : (writtenAll pieces ++ delimiter.closing :: behind).head? = some '.') :
    (writtenAll (joinAll place pieces) ++ delimiter.closing :: further).tail.head? =
      (writtenAll pieces ++ delimiter.closing :: behind).tail.head? := by
  cases pieces with
  | nil => cases delimiter <;> cases pointed
  | cons piece rest =>
    cases piece with
    | gap gap =>
      obtain ⟨first, others, written, plain⟩ := gap.exists_written
      have same : first = '.' := by simpa [written] using pointed
      rw [same] at plain
      cases plain
    | group other inner => cases other <;> simp [Delimiter.opening] at pointed
    | word word =>
      have first : word.first = '.' := by simpa [Word.written] using pointed
      have keeps : place.joins word rest = false := by simp [Surroundings.joins, notNamed]
      have noName : (place.behindWord word).named = false := by
        cases word with
        | identifier first tail begins continues => cases first; cases begins
        | _ => rfl
      rw [joinAll, keeps, if_neg Bool.false_ne_true]
      simp only [writtenAll_cons, written_word, Word.written, word.tail_of_point first,
        List.cons_append, List.nil_append, List.tail_cons]
      rcases head?_joinAll delimiter behind further (place.behindWord word) rest with
        same | ⟨named, -⟩
      · exact same
      · rw [noName] at named
        cases named

/-- No pair stands behind a number, so what follows the number keeps its first characters. -/
theorem splitNumber_joinAll (notNamed : place.named = false) (pieces : List Piece)
    (stops : (Scan.splitNumber (writtenAll pieces ++ delimiter.closing :: behind)).1 = []) :
    (Scan.splitNumber (writtenAll (joinAll place pieces) ++ delimiter.closing :: further)).1 =
      [] := by
  rw [splitNumber_eq_nil_iff] at stops ⊢
  intro character begins
  rcases head?_joinAll delimiter behind further place pieces with same | ⟨named, -⟩
  · rw [same] at begins
    obtain ⟨notContinues, notPoint⟩ := stops character begins
    refine ⟨notContinues, fun ⟨point, digit⟩ => notPoint ⟨point, ?_⟩⟩
    subst point
    rwa [head?_tail_joinAll delimiter behind further notNamed begins] at digit
  · rw [notNamed] at named
    cases named

end

theorem longestBefore_joinAll {delimiter : Delimiter} {behind : List Char} (further : List Char)
    (place : Surroundings) {rest : List Piece}
    (longest : word.LongestBefore (writtenAll rest ++ delimiter.closing :: behind)) :
    word.LongestBefore
      (writtenAll (joinAll (place.behindWord word) rest) ++ delimiter.closing :: further) := by
  cases word with
  | quoted quote items => exact longest_quoted _
  | mark character legal => exact longest_mark _
  | identifier first tail begins continues =>
    refine longest_identifier (stops_joinAll delimiter behind further _ rest ?_)
    exact stops_of_takeWhile (Scan.takeWhile_of_longest longest)
  | number first tail begins continues =>
    refine longest_number (splitNumber_joinAll delimiter behind further rfl rest ?_)
    exact Scan.splitNumber_of_longest longest

/-- The words of joined pieces are the longest in their places, whatever stands behind the bracket
that ends the pieces. -/
theorem longestAll_joinAll {delimiter : Delimiter} {behind : List Char} (further : List Char)
    (place : Surroundings) (pieces : List Piece)
    (longest : LongestAll (delimiter.closing :: behind) pieces) :
    LongestAll (delimiter.closing :: further) (joinAll place pieces) := by
  fun_induction joinAll place pieces generalizing delimiter behind further with
  | case1 => exact longest
  | case2 place gap rest ih =>
    rw [LongestAll] at longest ⊢
    exact ⟨trivial, ih further longest.2⟩
  | case3 place inner pieces rest innerHypothesis restHypothesis =>
    rw [LongestAll, Piece.LongestBefore] at longest ⊢
    exact ⟨innerHypothesis _ longest.1, restHypothesis further longest.2⟩
  | case4 place word rest joins ih =>
    -- A point is a mark and the longest anywhere; both colons are gone.
    rw [LongestAll] at longest ⊢
    have behindColon : LongestAll (delimiter.closing :: behind) rest.tail := by
      cases rest with
      | nil => exact longest.2
      | cons piece more =>
        have both := longest.2
        rw [LongestAll] at both
        exact both.2
    exact ⟨longest_mark _, ih further behindColon⟩
  | case5 place word rest keeps ih =>
    rw [LongestAll, Piece.LongestBefore] at longest ⊢
    exact ⟨longestBefore_joinAll further place longest.1, ih further longest.2⟩

/-! ## Joining again -/

theorem nextIsName_joinAll (notNamed : place.named = false)
    (pieces : List Piece) : nextIsName (joinAll place pieces) = nextIsName pieces := by
  induction pieces generalizing place with
  | nil => rw [joinAll]
  | cons piece rest ih =>
    cases piece with
    | gap gap =>
      rw [joinAll, nextIsName, nextIsName]
      exact ih rfl
    | group delimiter inner =>
      rw [joinAll]
      rfl
    | word word =>
      have keeps : place.joins word rest = false := by simp [Surroundings.joins, notNamed]
      rw [joinAll, keeps]
      rfl

theorem colonAndName_joinAll (notNamed : place.named = false)
    (pieces : List Piece) : colonAndName (joinAll place pieces) = colonAndName pieces := by
  cases pieces with
  | nil => rw [joinAll]
  | cons piece rest =>
    cases piece with
    | gap | group =>
      rw [joinAll]
      rfl
    | word word =>
      have keeps : place.joins word rest = false := by simp [Surroundings.joins, notNamed]
      rw [joinAll, keeps, if_neg Bool.false_ne_true, colonAndName, colonAndName]
      cases word with
      | mark character legal => rw [nextIsName_joinAll rfl]
      | _ => rfl

/-- A word that began no pair begins none among joined pieces. -/
theorem joins_joinAll (place : Surroundings) (word : Word) (rest : List Piece) :
    place.joins word (joinAll (place.behindWord word) rest) = place.joins word rest := by
  unfold Surroundings.joins
  cases word with
  | mark character legal => rw [colonAndName_joinAll rfl]
  | _ => simp [Word.isColon]

/-- Joining again changes nothing. -/
theorem joinAll_joinAll (place : Surroundings) (pieces : List Piece) :
    joinAll place (joinAll place pieces) = joinAll place pieces := by
  fun_induction joinAll place pieces with
  | case1 => rw [joinAll]
  | case2 place gap rest ih => rw [joinAll, ih]
  | case3 place delimiter inner rest innerHypothesis restHypothesis =>
    rw [joinAll, innerHypothesis, restHypothesis]
  | case4 place word rest joins ih =>
    have keeps : place.joins .point (joinAll (place.behindWord .point) rest.tail) = false := by
      simp [Surroundings.joins, Word.point, Word.isColon]
    rw [joinAll, keeps, if_neg Bool.false_ne_true, ih]
  | case5 place word rest keeps ih =>
    rw [joinAll, joins_joinAll, if_neg keeps, ih]

end Lexis

end TypedMarkup
