import TypedMarkup.Proofs.Report.Pointing

/-!
Contract: the snippets of an error print the line their span starts on, with carets under the span.

Owns: `Text.lineAround`, the line an offset stands on when lines are counted by line feeds,
`Text.feedsOnly`, the texts whose displayed lines are those lines, and the theorem on the snippets
of compile errors. Positions count line feeds only, but a displayed line ends at other characters as
well. Where one of these stands in a text, the line that is printed is another one, or only a part
of the line; the carets are right in any case.

Does not own: where the spans of errors come from.
-/

namespace TypedMarkup

namespace Text

/-! ## Lines that end at line feeds -/

/-- The line that an offset stands on: from behind the last line feed before it up to the first
line feed from it on. -/
def lineAround (text : List Char) (offset : Nat) : List Char :=
  ((text.take offset).reverse.takeWhile (· != '\n')).reverse ++
    (text.drop offset).takeWhile (· != '\n')

/-- A text up to the end of the line that an offset stands on. -/
def throughLine (text : List Char) (offset : Nat) : List Char :=
  text.take offset ++ (text.drop offset).takeWhile (· != '\n')

/-- A line without the carriage return of its line end. -/
def withoutReturn (line : List Char) : List Char :=
  if line.getLast? = some '\r' then line.dropLast else line

/-- Every character of a text that ends a displayed line is a line feed, or a carriage return that
stands before a line feed or at the end. -/
def feedsOnly : List Char → Bool
  | [] => true
  | character :: rest =>
    (!endsLine character || character == '\n' ||
      character == '\r' && rest.head?.getD '\n' == '\n') && feedsOnly rest

section

variable {rest : List Char} {character : Char} {before after : List Char} {line : List Char}
  {test : Char → Bool} {text : List Char}

theorem feedsOnly_cons :
    feedsOnly (character :: rest) = true ↔
      (endsLine character = true → character = '\n' ∨
        character = '\r' ∧ rest.head?.getD '\n' = '\n') ∧ feedsOnly rest = true := by
  cases ends : endsLine character with
  | false | true => simp [feedsOnly, ends]

theorem feedsOnly_append_right (agrees : feedsOnly (before ++ after) = true) :
    feedsOnly after = true := by
  induction before with
  | nil => exact agrees
  | cons character rest ih =>
    exact ih (feedsOnly_cons.mp agrees).2

theorem feedsOnly_append_left (agrees : feedsOnly (before ++ after) = true) :
    feedsOnly before = true := by
  induction before with
  | nil => rfl
  | cons character rest ih =>
    obtain ⟨here, further⟩ := feedsOnly_cons.mp agrees
    refine feedsOnly_cons.mpr ⟨fun ends => ?_, ih further⟩
    cases rest with
    | nil => exact (here ends).imp_right fun isReturn => ⟨isReturn.1, rfl⟩
    | cons second more => exact here ends

/-- In a line, only the last character can end a displayed line, and it is a carriage return. -/
theorem return_of_endsLine (agrees : feedsOnly (character :: rest) = true)
    (noFeed : '\n' ∉ character :: rest) (ends : endsLine character = true) :
    character = '\r' ∧ rest = [] := by
  rcases (feedsOnly_cons.mp agrees).1 ends with isFeed | ⟨isReturn, next⟩
  · exact absurd isFeed.symm (List.ne_of_not_mem_cons noFeed)
  · cases rest with
    | nil => exact ⟨isReturn, rfl⟩
    | cons second others =>
      have isFeed : second = '\n' := by simpa using next
      exact absurd (isFeed ▸ List.mem_cons_self) (List.not_mem_of_not_mem_cons noFeed)

theorem linesFrom_cons (goesOn : endsLine character = false) (begun rest : List Char) :
    linesFrom begun (character :: rest) = linesFrom (begun ++ [character]) rest := by
  have notReturn : character ≠ '\r' := by
    rintro rfl
    cases goesOn
  rw [linesFrom, if_neg (by simp [goesOn])]
  intro _ isReturn
  exact absurd isReturn notReturn

theorem linesFrom_feed (agrees : feedsOnly line = true) (noFeed : '\n' ∉ line)
    (begun rest : List Char) :
    linesFrom begun (line ++ '\n' :: rest) = (begun ++ line ++ ['\n']) :: linesFrom [] rest := by
  induction line generalizing begun with
  | nil => simp [linesFrom, endsLine, inRanges]
  | cons character others ih =>
    cases ends : endsLine character with
    | true =>
      obtain ⟨rfl, rfl⟩ := return_of_endsLine agrees noFeed ends
      simp [linesFrom]
    | false =>
      rw [List.cons_append, linesFrom_cons ends, ih
        (feedsOnly_cons.mp agrees).2 (List.not_mem_of_not_mem_cons noFeed)]
      simp

/-- A line that ends the text is one displayed line, or none when it is empty. -/
theorem linesFrom_last (agrees : feedsOnly line = true) (noFeed : '\n' ∉ line) (begun : List Char) :
    linesFrom begun line = if (begun ++ line).isEmpty then [] else [begun ++ line] := by
  induction line generalizing begun with
  | nil => simp [linesFrom]
  | cons character others ih =>
    cases ends : endsLine character with
    | true =>
      obtain ⟨rfl, rfl⟩ := return_of_endsLine agrees noFeed ends
      simp [linesFrom, ends]
    | false =>
      rw [linesFrom_cons ends, ih (feedsOnly_cons.mp agrees).2
        (List.not_mem_of_not_mem_cons noFeed)]
      simp

/-! ## What is left of a line without its end -/

theorem dropTrailing_append {last : Char} (dropped : test last = true) (line : List Char) :
    dropTrailing test (line ++ [last]) = dropTrailing test line := by
  rw [dropTrailing, List.reverse_concat, List.dropWhile_cons_of_pos dropped, dropTrailing]

theorem dropTrailing_of_not_mem (absent : character ∉ line) :
    dropTrailing (· == character) line = line := by
  have kept : line.reverse.dropWhile (· == character) = line.reverse := by
    cases reversed : line.reverse with
    | nil => rfl
    | cons last before =>
      have differs : last ≠ character := by
        rintro rfl
        exact absent (List.mem_reverse.mp (reversed ▸ List.mem_cons_self))
      exact List.dropWhile_cons_of_neg (by simpa using differs)
  rw [dropTrailing, kept, List.reverse_reverse]

/-- A line holds a carriage return at its end only. -/
theorem return_not_mem_dropLast (agrees : feedsOnly line = true) (noFeed : '\n' ∉ line) :
    '\r' ∉ line.dropLast := by
  induction line with
  | nil => exact List.not_mem_nil
  | cons character others ih =>
    have further := ih (feedsOnly_cons.mp agrees).2
      (List.not_mem_of_not_mem_cons noFeed)
    cases others with
    | nil => exact List.not_mem_nil
    | cons second more =>
      rw [List.dropLast_cons_cons, List.mem_cons, not_or]
      refine ⟨?_, further⟩
      rintro rfl
      exact absurd (return_of_endsLine agrees noFeed rfl).2 (List.cons_ne_nil _ _)

theorem withoutLineEnd_eq (agrees : feedsOnly line = true) (noFeed : '\n' ∉ line) :
    withoutLineEnd line = withoutReturn line := by
  have single := return_not_mem_dropLast agrees noFeed
  rw [withoutLineEnd, dropTrailing_of_not_mem noFeed, withoutReturn]
  rcases List.eq_nil_or_concat' line with rfl | ⟨before, last, rfl⟩
  · rfl
  · rw [List.dropLast_concat] at single ⊢
    by_cases isReturn : last = '\r'
    · rw [if_pos (by simp [isReturn]), dropTrailing_append (by simpa using isReturn),
        dropTrailing_of_not_mem single]
    · rw [if_neg (by simpa using isReturn), dropTrailing_of_not_mem]
      simpa [single] using Ne.symm isReturn

theorem withoutLineEnd_feed (line : List Char) :
    withoutLineEnd (line ++ ['\n']) = withoutLineEnd line := by
  rw [withoutLineEnd, dropTrailing_append rfl, withoutLineEnd]

theorem mem_of_mem_dropTrailing (member : character ∈ dropTrailing test line) : character ∈ line :=
  List.mem_reverse.mp ((List.dropWhile_sublist test).subset (List.mem_reverse.mp member))

theorem feed_not_mem_withoutLineEnd (noFeed : '\n' ∉ line) : '\n' ∉ withoutLineEnd line :=
  fun member => noFeed (mem_of_mem_dropTrailing (mem_of_mem_dropTrailing member))

/-- A displayed line ends at its first line feed. -/
theorem feed_not_mem_of_mem_linesFrom {begun text line : List Char} (noFeed : '\n' ∉ begun)
    (member : line ∈ linesFrom begun text) : '\n' ∉ withoutLineEnd line := by
  fun_induction linesFrom begun text with
  | case1 begun empty => cases member
  | case2 begun _ =>
    rw [List.mem_singleton.mp member]
    exact feed_not_mem_withoutLineEnd noFeed
  | case3 begun rest ih =>
    rcases List.mem_cons.mp member with rfl | later
    · rw [List.append_cons, withoutLineEnd_feed]
      exact feed_not_mem_withoutLineEnd (by simp [noFeed])
    · exact ih List.not_mem_nil later
  | case4 begun character rest _ _ ih =>
    rcases List.mem_cons.mp member with rfl | later
    · by_cases isFeed : character = '\n'
      · rw [isFeed, withoutLineEnd_feed]
        exact feed_not_mem_withoutLineEnd noFeed
      · exact feed_not_mem_withoutLineEnd (by simp [noFeed, Ne.symm isFeed])
    · exact ih List.not_mem_nil later
  | case5 begun character rest _ goesOn ih =>
    refine ih ?_ member
    have notFeed : character ≠ '\n' := by
      rintro rfl
      exact goesOn rfl
    simp [noFeed, Ne.symm notFeed]

/-! ## The displayed line of an offset -/

/-- The displayed line of a number, without its end; empty when there are not so many. -/
def displayed (lines : List (List Char)) (index : Nat) : List Char :=
  ((lines[index]?).map withoutLineEnd).getD []

theorem displayed_first (agrees : feedsOnly (text.takeWhile (· != '\n')) = true) :
    displayed (linesFrom [] text) 0 = withoutReturn (text.takeWhile (· != '\n')) := by
  have noFeed : '\n' ∉ text.takeWhile (· != '\n') := by
    intro member
    simpa using List.mem_takeWhile_imp member
  have parts : text.takeWhile (· != '\n') ++ text.dropWhile (· != '\n') = text :=
    List.takeWhile_append_dropWhile
  rw [← withoutLineEnd_eq agrees noFeed]
  cases behind : text.dropWhile (· != '\n') with
  | nil =>
    rw [behind, List.append_nil] at parts
    rw [parts] at agrees noFeed ⊢
    rw [linesFrom_last agrees noFeed, List.nil_append]
    cases text with
    | nil | cons => rfl
  | cons feed rest =>
    have isFeed : feed = '\n' := by
      have stopped := List.head?_dropWhile_not (fun character => character != '\n') text
      rw [behind] at stopped
      simpa using stopped
    rw [behind, isFeed] at parts
    rw [← parts, linesFrom_feed agrees noFeed, parts]
    exact withoutLineEnd_feed _

theorem takeWhile_append_feed (front back : List Char) :
    (front ++ '\n' :: back).takeWhile (· != '\n') = front.takeWhile (· != '\n') := by
  induction front with
  | nil => rfl
  | cons character rest ih =>
    rw [List.cons_append, List.takeWhile_cons, List.takeWhile_cons, ih]

/-- The displayed line with the number that line feeds give to an offset is the line of the
offset. -/
theorem displayed_count (before after : List Char)
    (agrees : feedsOnly (before ++ after.takeWhile (· != '\n')) = true) :
    displayed (linesFrom [] (before ++ after)) (before.count '\n') =
      withoutReturn ((before.reverse.takeWhile (· != '\n')).reverse ++
        after.takeWhile (· != '\n')) := by
  generalize counted : before.count '\n' = feeds
  induction feeds generalizing before with
  | zero =>
    have within : ∀ character ∈ before, (character != '\n') = true := by
      intro character member
      have notFeed : character ≠ '\n' := by
        rintro rfl
        exact List.count_eq_zero.mp counted member
      simpa using notFeed
    have whole : (before ++ after).takeWhile (· != '\n') =
        before ++ after.takeWhile (· != '\n') :=
      List.takeWhile_append_of_pos within
    rw [List.takeWhile_eq_self_iff.mpr (by simpa using within), List.reverse_reverse, ← whole]
    exact displayed_first (by rw [whole]; exact agrees)
  | succ feeds ih =>
    -- The line before the first feed is displayed as one line, and nothing behind depends on it.
    have member : '\n' ∈ before := List.count_pos_iff.mp (by omega)
    obtain ⟨line, rest, rfl, noFeed⟩ := List.eq_append_cons_of_mem member
    rw [List.count_append, List.count_eq_zero.mpr noFeed, List.count_cons_self] at counted
    rw [List.append_assoc, List.cons_append] at agrees ⊢
    have lineAgrees := feedsOnly_append_left agrees
    have restAgrees := (feedsOnly_cons.mp (feedsOnly_append_right agrees)).2
    rw [linesFrom_feed lineAgrees noFeed, List.reverse_append, List.reverse_cons,
      ← List.append_cons, takeWhile_append_feed]
    exact ih rest restAgrees (by omega)

/-- Where lines end at line feeds, the displayed line with the number of a position is the line
that the position stands on. -/
theorem displayed_of_marks {position : Position} (marks : position.Marks text)
    (agrees : feedsOnly (throughLine text position.offset) = true) :
    displayed (linesFrom [] text) (position.line - 1) =
      withoutReturn (lineAround text position.offset) := by
  have number : position.line - 1 = (text.take position.offset).count '\n' := by
    rw [marks.line]
    omega
  have found := displayed_count (text.take position.offset) (text.drop position.offset) agrees
  rwa [List.take_append_drop, ← number] at found

end

end Text

/-! ## Snippets -/

namespace Report

theorem sourceLine_eq (source : String) {span : Span} (counted : 0 < span.start.line) :
    sourceLine source span = Text.displayed (Text.displayLines source) (span.start.line - 1) := by
  unfold sourceLine
  split
  · next none => omega
  · next index some => rw [some]; rfl

theorem feed_not_mem_sourceLine (source : String) (span : Span) :
    '\n' ∉ sourceLine source span := by
  unfold sourceLine
  split
  · exact List.not_mem_nil
  · next index _ =>
    cases found : (Text.displayLines source)[index]? with
    | none => exact List.not_mem_nil
    | some line =>
      exact Text.feed_not_mem_of_mem_linesFrom List.not_mem_nil (List.mem_of_getElem? found)

/-- What is printed ends with a line behind its number and, in the next row, with carets that begin
under the column where a span starts. -/
def Underlines (printed line : List Char) (span : Span) (carets : Nat) : Prop :=
  ∃ above label margin,
    printed = above ++ '\n' :: (label ++ line) ++ '\n' :: (margin ++ List.replicate carets '^') ∧
    label = (toString span.start.line).toList ++ [' ', '|', ' '] ∧
    margin.length = label.length + (span.start.column - 1) ∧ '^' ∉ margin ∧ '\n' ∉ margin

theorem underlines_snippet (source : String) (span : Span) (filename : String) :
    Underlines (snippet source span filename).toList (sourceLine source span) span
      (caretCount (sourceLine source span) span) := by
  unfold Underlines snippet
  generalize toString span.start.line = number
  refine ⟨(blanks (number.length + 1) ++ "--> " ++ filename ++ ":" ++ number ++ ":" ++
      toString span.start.column ++ "\n" ++ blanks (number.length + 1) ++ "|").toList,
    number.toList ++ [' ', '|', ' '],
    (blanks (number.length + 1) ++ "| " ++ blanks (span.start.column - 1)).toList, ?_, rfl, ?_,
    ?_, ?_⟩
  · simp
  · have bar : "| ".toList.length = 2 := rfl
    simp only [blanks, String.toList_append, String.toList_ofList, List.length_append,
      List.length_replicate, String.length_toList, List.length_cons, List.length_nil] at bar ⊢
    omega
  · simp [blanks]
  · simp [blanks]

/-- On one line there are as many carets as characters, and at least one. -/
theorem caretCount_eq {text : List Char} {span : Span} (points : span.PointsInto text)
    (oneLine : span.stop.line = span.start.line) (line : List Char) :
    caretCount line span = max 1 (span.stop.offset - span.start.offset) := by
  rw [caretCount, if_pos oneLine, points.column_stop oneLine, Nat.add_sub_cancel_left]

theorem infix_toList_append (before middle after : String) :
    middle.toList <:+: (before ++ middle ++ after).toList := by
  rw [String.toList_append, String.toList_append]
  exact List.infix_append _ _ _

/-- A report holds the snippet of its own span and those of its notes. -/
theorem snippet_infix_render (report : Report) (filename : String) {span : Span}
    (shown : span ∈ report.span :: report.notes.map Note.span) :
    (snippet report.source span filename).toList <:+: (report.render filename).toList := by
  unfold render
  dsimp only
  rcases List.mem_cons.mp shown with rfl | noted
  · rw [String.append_assoc]
    exact infix_toList_append _ _ _
  · obtain ⟨note, member, rfl⟩ := List.mem_map.mp noted
    refine List.IsInfix.trans ?_ (infix_toList_append _ _ _)
    rw [String.toList_join, List.flatMap_map]
    refine List.IsInfix.trans ?_ (List.infix_of_mem_flatten (List.mem_map_of_mem member))
    rw [String.toList_append]
    exact (List.suffix_append _ _).isInfix

end Report

/-- Every snippet of a compile error has its carets under the span it is about, as many as the span
has characters on one line. The line above them is the line the span starts on, without its line
end, when up to there no other character than a line feed ends a line. -/
theorem snippets_underline_their_spans {source : String} {registry : Registry}
    {requested : Option String} {error : CompileError}
    (failed : compile source registry requested = .error (.compile error)) (filename : String)
    {span : Span} (shown : span ∈ error.span :: error.cause.notes.map Note.span) :
    (Report.snippet error.source span filename).toList <:+: (error.render filename).toList ∧
    ∃ line carets,
      Report.Underlines (Report.snippet error.source span filename).toList line span carets ∧
      '\n' ∉ line ∧
      (span.stop.line = span.start.line →
        carets = max 1 (span.stop.offset - span.start.offset)) ∧
      (Text.feedsOnly (Text.throughLine source.toList span.start.offset) = true →
        line = Text.withoutReturn (Text.lineAround source.toList span.start.offset)) := by
  have points := compile_error failed
  have spanPoints : span.PointsInto source.toList := by
    rcases List.mem_cons.mp shown with rfl | noted
    · exact points.span
    · obtain ⟨note, member, rfl⟩ := List.mem_map.mp noted
      exact points.notes note member
  refine ⟨error.report.snippet_infix_render filename shown, Report.sourceLine error.source span, _,
    Report.underlines_snippet error.source span filename,
    Report.feed_not_mem_sourceLine error.source span,
    fun oneLine => Report.caretCount_eq spanPoints oneLine _, fun agrees => ?_⟩
  have counted : 0 < span.start.line := by
    rw [spanPoints.start.line]
    omega
  rw [Report.sourceLine_eq _ counted, points.carried]
  exact Text.displayed_of_marks spanPoints.start agrees

/-- Where a carriage return and a line feed end the first line, the second is printed. -/
theorem mismatch_behind_return_is_underlined :
    ∃ error, compile "<div>\r\n</span>" .html none = .error (.compile error) ∧
      Text.feedsOnly (Text.throughLine "<div>\r\n</span>".toList error.span.start.offset) = true ∧
      ∃ line carets, Report.Underlines
          (Report.snippet error.source error.span "page").toList line error.span carets ∧
        line = "</span>".toList ∧ carets = 4 := by
  have reported : reports (fun error => error.span == ⟨⟨2, 3, 9⟩, ⟨2, 7, 13⟩⟩)
      (compile "<div>\r\n</span>" .html none) = true := by
    decide +kernel
  obtain ⟨error, failed, placed⟩ := exists_of_reports reported
  have agrees : Text.feedsOnly (Text.throughLine "<div>\r\n</span>".toList
      error.span.start.offset) = true := by
    rw [eq_of_beq placed]
    decide +kernel
  obtain ⟨-, line, carets, underlined, -, counted, shown⟩ :=
    snippets_underline_their_spans failed "page" List.mem_cons_self
  refine ⟨error, failed, agrees, line, carets, underlined, ?_, ?_⟩
  · rw [shown agrees, eq_of_beq placed]
    decide +kernel
  · rw [eq_of_beq placed] at counted
    exact counted rfl

/-- A form feed at the end of the first line ends a displayed line of its own, so that the line feed
behind it is displayed as the second line, and the carets stand under an empty line. -/
theorem form_feed_displaces_the_printed_line :
    ∃ error, compile "<div>\x0c\n</span>" .html none = .error (.compile error) ∧
      Text.lineAround "<div>\x0c\n</span>".toList error.span.start.offset = "</span>".toList ∧
      Report.snippet error.source error.span "page" = "  --> page:2:3\n  |\n2 | \n  |   ^^^^" := by
  have reported : reports (fun error => error.span == ⟨⟨2, 3, 9⟩, ⟨2, 7, 13⟩⟩)
      (compile "<div>\x0c\n</span>" .html none) = true := by
    decide +kernel
  obtain ⟨error, failed, placed⟩ := exists_of_reports reported
  refine ⟨error, failed, ?_, ?_⟩
  · rw [eq_of_beq placed]
    decide +kernel
  · rw [eq_of_beq placed, (compile_error failed).carried]
    decide +kernel

end TypedMarkup
