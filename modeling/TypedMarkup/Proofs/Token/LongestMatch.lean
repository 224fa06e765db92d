import TypedMarkup.Proofs.Token.Words

/-!
Contract: every layout can be cut into longest words.

Owns: when a word is the longest in front of a text, and the theorem that a text with a layout has
one in which every word is the longest.

A word takes characters away from the pieces behind it. Only characters of identifiers and numbers
are taken, and what is left of a piece then is a sequence of pieces again, so the language has the
same texts whether or not its words are the longest.
-/

namespace TypedMarkup.Lexis

/-! ## Kinds of words -/

inductive Kind where
  | identifier
  | number
  | quoted
  | mark
deriving DecidableEq

def Word.kind : Word → Kind
  | identifier _ _ _ _ => .identifier
  | number _ _ _ _ => .number
  | quoted _ _ => .quoted
  | mark _ _ => .mark

/-- The kind of the words that begin with a character. -/
def kindOf (character : Char) : Kind :=
  if character = '"' ∨ character = '\'' then .quoted
  else if character.isDigit then .number
  else if beginsIdentifier character then .identifier
  else .mark

theorem Word.kindOf_first (word : Word) : kindOf word.first = word.kind := by
  cases word with
  | identifier first tail begins continues =>
    have notQuote : ¬ (first = '"' ∨ first = '\'') := by
      simp [ne_of_class begins '"' rfl, ne_of_class begins '\'' rfl]
    have notDigit : ¬ first.isDigit = true := by
      intro digit
      rw [not_beginsIdentifier_of_isDigit digit] at begins
      cases begins
    rw [Word.first, kindOf, if_neg notQuote, if_neg notDigit, if_pos begins]
    rfl
  | number first tail begins continues =>
    have notQuote : ¬ (first = '"' ∨ first = '\'') := by
      simp [ne_of_class begins '"' rfl, ne_of_class begins '\'' rfl]
    rw [Word.first, kindOf, if_neg notQuote, if_pos begins]
    rfl
  | quoted quote items => cases quote <;> rfl
  | mark character legal =>
    have isMark := of_isMark (fun character => kindOf character == .mark) (by decide) legal
    exact eq_of_beq isMark

/-- Words in front of one text begin alike, so they are of one kind. -/
theorem Word.first_eq_of_begins {word other : Word} {after : List Char}
    (begins : other.written <+: word.written ++ after) :
    other.first = word.first ∧ other.tail <+: word.tail ++ after ∧ other.kind = word.kind := by
  rw [Word.written, Word.written, List.cons_append, List.cons_prefix_cons] at begins
  refine ⟨begins.1, begins.2, ?_⟩
  rw [← other.kindOf_first, ← word.kindOf_first, begins.1]

/-! ## Longest words -/

/-- A text does not begin with a character of a class. -/
def Stops (inClass : Char → Bool) (text : List Char) : Prop :=
  ∀ character rest, text = character :: rest → inClass character = false

section

variable {inClass : Char → Bool} {after : List Char}

theorem takeWhile_of_stops (stops : Stops inClass after) : after.takeWhile inClass = [] := by
  cases after with
  | nil => rfl
  | cons character rest =>
    have outside : ¬ inClass character = true := by simp [stops character rest rfl]
    rw [List.takeWhile_cons_of_neg outside]

theorem stops_dropWhile (text : List Char) (stops : Stops inClass after) :
    Stops inClass (text.dropWhile inClass ++ after) := by
  intro character rest begins
  cases left : text.dropWhile inClass with
  | nil =>
    rw [left, List.nil_append] at begins
    exact stops character rest begins
  | cons first more =>
    rw [left, List.cons_append] at begins
    have nonempty : text.dropWhile inClass ≠ [] := by simp [left]
    have outside := List.head_dropWhile_not inClass nonempty
    cases begins
    simpa [left] using outside

theorem longest_identifier {first : Char} {tail : List Char}
    {begins : beginsIdentifier first = true}
    {continues : ∀ character ∈ tail, continuesIdentifier character = true}
    (stops : Stops continuesIdentifier after) :
    (Word.identifier first tail begins continues).LongestBefore after := by
  intro other isPrefix
  obtain ⟨-, ⟨rest, tails⟩, sameKind⟩ := Word.first_eq_of_begins isPrefix
  cases other with
  | identifier otherFirst otherTail otherBegins otherContinues =>
    have taken := congrArg (List.takeWhile continuesIdentifier) tails
    simp only [Word.tail] at taken
    rw [List.takeWhile_append_of_pos otherContinues, List.takeWhile_append_of_pos continues,
      takeWhile_of_stops stops, List.append_nil] at taken
    have lengths := congrArg List.length taken
    simp only [List.length_append] at lengths
    simp only [Word.written, Word.tail, List.length_cons]
    omega
  | number | quoted | mark => cases sameKind

theorem longest_number {first : Char} {tail : List Char} {begins : first.isDigit = true}
    {continues : ContinuesNumber tail} (stops : (Scan.splitNumber after).1 = []) :
    (Word.number first tail begins continues).LongestBefore after := by
  intro other isPrefix
  obtain ⟨-, ⟨rest, tails⟩, sameKind⟩ := Word.first_eq_of_begins isPrefix
  cases other with
  | number otherFirst otherTail otherBegins otherContinues =>
    have split := congrArg (fun text => (Scan.splitNumber text).1) tails
    simp only [Word.tail, Scan.splitNumber_append_of_continues otherContinues,
      Scan.splitNumber_append_of_continues continues, stops, List.append_nil] at split
    have lengths := congrArg List.length split
    simp only [List.length_append] at lengths
    simp only [Word.written, Word.tail, List.length_cons]
    omega
  | identifier | quoted | mark => cases sameKind

theorem longest_mark {character : Char} {legal : isMark character = true} (after : List Char) :
    (Word.mark character legal).LongestBefore after := by
  intro other isPrefix
  obtain ⟨-, -, sameKind⟩ := Word.first_eq_of_begins isPrefix
  cases other with
  | mark otherCharacter otherLegal => exact Nat.le_refl _
  | identifier | number | quoted => cases sameKind

theorem Quote.eq_of_character_eq {quote other : Quote}
    (same : quote.character = other.character) : quote = other := by
  cases quote <;> cases other <;> first | rfl | cases same

/-- A quoted text ends at its quote, so there is no other in its place. -/
theorem longest_quoted {quote : Quote} {items : List (Item quote.character)} (after : List Char) :
    (Word.quoted quote items).LongestBefore after := by
  intro other isPrefix
  obtain ⟨sameFirst, ⟨rest, tails⟩, sameKind⟩ := Word.first_eq_of_begins isPrefix
  cases other with
  | quoted otherQuote otherItems =>
    cases Quote.eq_of_character_eq sameFirst
    have read := Scan.literal_complete quote items after
    rw [← tails, Scan.literal_complete] at read
    have sameWritten : (Word.quoted quote otherItems).written =
        (Word.quoted quote items).written :=
      congrArg Scan.Lexeme.written (Except.ok.inj read)
    rw [sameWritten]
  | identifier | number | mark => cases sameKind

end

/-! ## Taking characters away -/

/-- The characters that a word can take from what follows it. -/
def isPlain (character : Char) : Bool := continuesIdentifier character || character == '.'

theorem isPlain_of_continuesNumber {tail : List Char} (continues : ContinuesNumber tail) :
    ∀ character ∈ tail, isPlain character = true := by
  induction tail with
  | nil => exact List.forall_mem_nil _
  | cons character rest ih =>
    obtain ⟨here, further⟩ := continues
    refine List.forall_mem_cons.mpr ⟨?_, ih further⟩
    rcases here with continues | ⟨rfl, -⟩
    · simp [isPlain, continues]
    · rfl

theorem exists_word_of_isPlain {character : Char} (plain : isPlain character = true) :
    ∃ word : Word, word.written = [character] := by
  simp only [isPlain, continuesIdentifier, Bool.or_eq_true, beq_iff_eq] at plain
  rcases plain with (letter | digit) | rfl
  · exact ⟨.identifier character [] letter (List.forall_mem_nil _), rfl⟩
  · exact ⟨.number character [] digit trivial, rfl⟩
  · exact ⟨.mark '.' rfl, rfl⟩

theorem exists_pieces_of_isPlain {text : List Char}
    (plain : ∀ character ∈ text, isPlain character = true) :
    ∃ pieces, writtenAll pieces = text := by
  induction text with
  | nil => exact ⟨[], writtenAll_nil⟩
  | cons character rest ih =>
    obtain ⟨here, further⟩ := List.forall_mem_cons.mp plain
    obtain ⟨word, written⟩ := exists_word_of_isPlain here
    obtain ⟨pieces, restWritten⟩ := ih further
    exact ⟨.word word :: pieces, by simp [written, restWritten]⟩

/-- Behind a plain character of a word there is nothing but plain ones. -/
theorem Word.tail_isPlain {word : Word} (plain : isPlain word.first = true) :
    ∀ character ∈ word.tail, isPlain character = true := by
  cases word with
  | identifier first tail begins continues =>
    intro character member
    simp [isPlain, continues character member]
  | number first tail begins continues => exact isPlain_of_continuesNumber continues
  | quoted quote items =>
    cases quote <;> cases plain
  | mark character legal => exact List.forall_mem_nil _

theorem Gap.exists_written (gap : Gap) :
    ∃ first rest, gap.written = first :: rest ∧ isPlain first = false := by
  cases gap with
  | blank character legal =>
    refine ⟨character, [], rfl, ?_⟩
    simp only [isGap, Bool.or_eq_true, beq_iff_eq] at legal
    rcases legal with (((rfl | rfl) | rfl) | rfl) | rfl
    all_goals rfl
  | comment remark => exact ⟨'#', remark.body ++ ['\n'], rfl, rfl⟩

theorem length_writtenAll_lt (piece : Piece) (rest : List Piece) :
    (writtenAll rest).length < (writtenAll (piece :: rest)).length := by
  have nonempty : 0 < piece.written.length := by
    cases piece with
    | gap gap =>
      obtain ⟨first, others, gapWritten, -⟩ := gap.exists_written
      simp [gapWritten]
    | word word => simp [Word.written]
    | group delimiter inner => simp
  rw [writtenAll_cons, List.length_append]
  omega

theorem exists_pieces_behind {pieces : List Piece} {first : Char} {rest : List Char}
    (written : writtenAll pieces = first :: rest) (plain : isPlain first = true) :
    ∃ fewer, writtenAll fewer = rest := by
  cases pieces with
  | nil => simp at written
  | cons piece more =>
    rw [writtenAll_cons] at written
    cases piece with
    | gap gap =>
      obtain ⟨begin, others, gapWritten, notPlain⟩ := gap.exists_written
      rw [written_gap, gapWritten, List.cons_append] at written
      cases written
      rw [plain] at notPlain
      cases notPlain
    | word word =>
      rw [written_word, Word.written, List.cons_append] at written
      cases written
      obtain ⟨tail, tailWritten⟩ := exists_pieces_of_isPlain (Word.tail_isPlain plain)
      exact ⟨tail ++ more, by rw [writtenAll_append, tailWritten]⟩
    | group delimiter inner =>
      rw [written_group, List.cons_append] at written
      cases written
      cases delimiter <;> cases plain

/-- Pieces that begin with plain characters are still pieces without them. -/
theorem exists_pieces_behind_all {pieces : List Piece} {run rest : List Char}
    (written : writtenAll pieces = run ++ rest)
    (plain : ∀ character ∈ run, isPlain character = true) : ∃ fewer, writtenAll fewer = rest := by
  induction run generalizing pieces with
  | nil => exact ⟨pieces, written⟩
  | cons character more ih =>
    obtain ⟨here, further⟩ := List.forall_mem_cons.mp plain
    obtain ⟨fewer, fewerWritten⟩ := exists_pieces_behind written here
    exact ih fewerWritten further

/-! ## Cutting into longest words -/

theorem stops_of_not_plain {after : List Char} (stops : Stops isPlain after) :
    Stops continuesIdentifier after := by
  intro character rest begins
  have notPlain := stops character rest begins
  simp only [isPlain, Bool.or_eq_false_iff] at notPlain
  exact notPlain.1

/-- What is left behind a number does not continue it, also in front of more text. -/
theorem splitNumber_rest (text : List Char) {after : List Char} (stops : Stops isPlain after) :
    (Scan.splitNumber ((Scan.splitNumber text).2 ++ after)).1 = [] := by
  induction text with
  | nil =>
    cases after with
    | nil => rfl
    | cons character rest =>
      have notPlain := stops character rest rfl
      simp only [isPlain, Bool.or_eq_false_iff] at notPlain
      simp [Scan.splitNumber, notPlain.1, notPlain.2]
  | cons character rest ih =>
    rw [Scan.splitNumber]
    split
    · exact ih
    · next ends =>
      have endsBefore : ¬ (continuesIdentifier character || character == '.' &&
          ((rest ++ after).head?.map Char.isDigit).getD false) = true := by
        cases rest with
        | cons next others => simpa using ends
        | nil =>
          cases after with
          | nil => simpa using ends
          | cons next others =>
            have notPlain := stops next others rfl
            simp only [isPlain, continuesIdentifier, Bool.or_eq_false_iff] at notPlain
            simp only [List.head?_nil, Option.map_none, Option.getD_none, Bool.and_false,
              Bool.or_false] at ends
            simp [ends, notPlain]
      rw [List.cons_append, Scan.splitNumber, if_neg endsBefore]

theorem stops_closing (delimiter : Delimiter) (rest : List Char) :
    Stops isPlain (delimiter.closing :: rest) := by
  intro character others begins
  cases begins
  cases delimiter <;> rfl

/-- Pieces in front of a text that takes no part in their words can be cut again so that every word
is the longest. -/
theorem exists_longest (pieces : List Piece) (after : List Char) (stops : Stops isPlain after) :
    ∃ longest, writtenAll longest = writtenAll pieces ∧ LongestAll after longest := by
  match pieces with
  | [] => exact ⟨[], rfl, trivial⟩
  | .gap gap :: rest =>
    obtain ⟨longest, written, isLongest⟩ := exists_longest rest after stops
    exact ⟨.gap gap :: longest, by simp [written], trivial, isLongest⟩
  | .group delimiter inner :: rest =>
    obtain ⟨longest, written, isLongest⟩ := exists_longest rest after stops
    obtain ⟨within, withinWritten, withinLongest⟩ := exists_longest inner
      (delimiter.closing :: (writtenAll longest ++ after)) (stops_closing delimiter _)
    exact ⟨.group delimiter within :: longest, by simp [written, withinWritten], withinLongest,
      isLongest⟩
  | .word (.mark character legal) :: rest =>
    obtain ⟨longest, written, isLongest⟩ := exists_longest rest after stops
    exact ⟨.word (.mark character legal) :: longest, by simp [written], longest_mark _, isLongest⟩
  | .word (.quoted quote items) :: rest =>
    obtain ⟨longest, written, isLongest⟩ := exists_longest rest after stops
    exact ⟨.word (.quoted quote items) :: longest, by simp [written], longest_quoted _, isLongest⟩
  | .word (.identifier first tail begins continues) :: rest =>
    have split :=
      List.takeWhile_append_dropWhile (p := continuesIdentifier) (l := writtenAll rest)
    have run : ∀ character ∈ (writtenAll rest).takeWhile continuesIdentifier,
        continuesIdentifier character = true := fun _ member => List.mem_takeWhile_imp member
    obtain ⟨fewer, fewerWritten⟩ := exists_pieces_behind_all split.symm fun character member => by
      simp [isPlain, run character member]
    obtain ⟨longest, written, isLongest⟩ := exists_longest fewer after stops
    refine ⟨.word (.identifier first _ begins (List.forall_mem_append.mpr ⟨continues, run⟩)) ::
      longest, ?_, longest_identifier ?_, isLongest⟩
    · rw [writtenAll_cons, writtenAll_cons, written, fewerWritten]
      simp [Word.written, Word.first, Word.tail]
    · rw [written, fewerWritten]
      exact stops_dropWhile _ (stops_of_not_plain stops)
  | .word (.number first tail begins continues) :: rest =>
    have split := Scan.splitNumber_append (writtenAll rest)
    have run := Scan.splitNumber_continues (tail ++ writtenAll rest)
    rw [Scan.splitNumber_append_of_continues continues] at run
    obtain ⟨fewer, fewerWritten⟩ := exists_pieces_behind_all split.symm
      (isPlain_of_continuesNumber (Scan.splitNumber_continues _))
    obtain ⟨longest, written, isLongest⟩ := exists_longest fewer after stops
    refine ⟨.word (.number first _ begins run) :: longest, ?_, longest_number ?_, isLongest⟩
    · rw [writtenAll_cons, writtenAll_cons, written, fewerWritten]
      simp [Word.written, Word.first, Word.tail, split]
    · rw [written, fewerWritten]
      exact splitNumber_rest _ stops
termination_by (writtenAll pieces).length
decreasing_by
  · exact length_writtenAll_lt (.gap gap) rest
  · exact length_writtenAll_lt (.group delimiter inner) rest
  · rw [writtenAll_cons, written_group]
    simp only [List.length_append, List.length_cons]
    omega
  · exact length_writtenAll_lt (.word (.mark character legal)) rest
  · exact length_writtenAll_lt (.word (.quoted quote items)) rest
  · have shorter := List.length_dropWhile_le continuesIdentifier (writtenAll rest)
    have whole := length_writtenAll_lt (.word (.identifier first tail begins continues)) rest
    rw [fewerWritten]
    omega
  · have lengths := congrArg List.length split
    have whole := length_writtenAll_lt (.word (.number first tail begins continues)) rest
    rw [List.length_append] at lengths
    rw [fewerWritten]
    omega

end TypedMarkup.Lexis
