import TypedMarkup.Proofs.Markup.Acceptance
import TypedMarkup.Proofs.Token.Faults

/-!
Contract: errors of reading a unit point into its text, and so do the places of what is read.

Owns: `Cause.isOfReading`, which tells the errors of reading a text from all others,
`CompileError.PointsInto`, which says that an error carries a text and that all its spans are spans
of it, and the proof that the markup grammar reports such errors only; that every part of a unit has
a span that covers its tokens, and `Markup.Node.places`, the spans that later errors can stand at. A
reader that fails has read the tokens of complete parts before, so the cursor it fails at still
stands between tokens of the text.

Does not own: the errors of checking and planning a unit.
-/

namespace TypedMarkup

/-- An error of reading a text: of its lexical units, or of the grammar. -/
def Cause.isOfReading : Cause → Bool
  | lexical _ _ => true
  | grammar _ => true
  | tagMismatch _ _ _ => true
  | _ => false

abbrev CompileError.OfReading (error : CompileError) : Prop := error.cause.isOfReading = true

/-- An error that is none of reading a text. -/
abbrev CompileError.BehindReading (error : CompileError) : Prop := error.cause.isOfReading = false

/-- An error points into a text: it carries the text, its span and those of its notes are spans of
the text, and a lexical one stands at exactly one character. -/
structure CompileError.PointsInto (source : String) (error : CompileError) : Prop where
  carried : error.source = source
  span : error.span.PointsInto source.toList
  notes : ∀ note ∈ error.cause.notes, note.span.PointsInto source.toList
  lexical : ∀ cause position, error.cause = .lexical cause position →
    error.span = ⟨position, position.right⟩ ∧ position.offset < source.toList.length

/-- An error of reading a text, which points into it. -/
structure CompileError.OfReadingIn (source : String) (error : CompileError) : Prop where
  ofReading : error.OfReading
  points : error.PointsInto source

/-! ## Cursors -/

namespace Cursor

/-- A cursor stands between the tokens of a text. -/
structure Over (source : String) (cursor : Cursor) : Prop where
  carried : cursor.source = source
  tokens : InOrder source.toList
    (cursor.passed.reverse ++ (cursor.ahead ++ [.endOfInput cursor.stop]))

section

variable {source : String} {cursor : Cursor}

theorem over_ofTokens {tokens : Tokens} (read : tokenize source = .ok tokens) :
    (Cursor.ofTokens source tokens).Over source :=
  ⟨rfl, tokenize_inOrder read⟩

theorem current_mem (cursor : Cursor) :
    cursor.current ∈ cursor.ahead ++ [.endOfInput cursor.stop] := by
  cases begins : cursor.ahead with
  | nil => simp [current, peek, begins]
  | cons token rest => simp [current_eq begins]

variable (standing : cursor.Over source)

include standing

theorem Over.behind {behind : Cursor} {tokens : List Token} (takes : cursor.Takes tokens behind) :
    behind.Over source := by
  obtain ⟨ahead, place⟩ := takes
  rw [place]
  refine ⟨standing.carried, ?_⟩
  have inOrder := standing.tokens
  simpa [Cursor.past, ahead] using inOrder

theorem Over.forward : cursor.forward.Over source := by
  cases ahead : cursor.ahead with
  | nil =>
    rw [Cursor.forward, ahead]
    exact standing
  | cons token rest => exact standing.behind (takes_of_ahead ahead)

theorem Over.ahead : InOrder source.toList cursor.ahead :=
  standing.tokens.right.left

theorem Over.part {behind : Cursor} {tokens : List Token} (takes : cursor.Takes tokens behind) :
    InOrder source.toList tokens := by
  have inOrder := standing.ahead
  rw [takes.1] at inOrder
  exact inOrder.left

theorem Over.current : cursor.current.span.PointsInto source.toList :=
  standing.tokens.right.points _ cursor.current_mem

theorem Over.reports (cause : GrammarCause) {span : Span} (points : span.PointsInto source.toList) :
    (cursor.error cause span).OfReadingIn source :=
  ⟨rfl, standing.carried, points, List.forall_mem_nil _, by rintro _ _ ⟨⟩⟩

/-- From the first token to the next one is a span of the text. -/
theorem Over.whole : (cursor.first.span.join cursor.current.span).PointsInto source.toList := by
  have inOrder := standing.tokens
  unfold Cursor.first
  cases passed : cursor.passed.getLast? with
  | none =>
    rw [List.getLast?_eq_none_iff.mp passed, List.reverse_nil, List.nil_append] at inOrder
    have points := inOrder.points _ cursor.current_mem
    exact ⟨points.forward, points.start, points.stop⟩
  | some first =>
    obtain ⟨others, split⟩ := List.getLast?_eq_some_iff.mp passed
    rw [split, List.reverse_append, List.reverse_singleton, List.append_assoc] at inOrder
    have behind := List.mem_append_right others.reverse cursor.current_mem
    exact inOrder.join (List.mem_cons_of_mem first behind)

theorem Over.unexpected (expected : List String) :
    (cursor.unexpected expected).OfReadingIn source := by
  unfold Cursor.unexpected
  split
  · exact standing.reports _ standing.whole
  · exact standing.reports _ standing.current

theorem Over.expectMark (character : Char) (expected : List String) :
    FailsOnly (CompileError.OfReadingIn source) (cursor.expectMark character expected) := by
  unfold Cursor.expectMark
  split
  · exact .ok _
  · exact FailsOnly.error_iff.mpr (standing.unexpected expected)

theorem Over.expectIdentifier (expected : List String) :
    FailsOnly (CompileError.OfReadingIn source) (cursor.expectIdentifier expected) := by
  unfold Cursor.expectIdentifier
  split
  · exact .ok _
  · exact FailsOnly.error_iff.mpr (standing.unexpected expected)

end

end Cursor

namespace Markup

/-! ## The places of a tree -/

/-- The places of an attribute that errors can stand at. -/
def Attribute.places (found : Attribute) : List Span := [found.nameSpan, found.value.span]

mutual

/-- The places of a tree that errors can stand at. -/
def Node.places : Node → List Span
  | .element tag children span =>
    span :: tag.nameSpan :: (tag.attributes.flatMap Attribute.places ++ placesAll children)
  | .text _ span => [span]
  | .block expression => [expression.span]

def placesAll : List Node → List Span
  | [] => []
  | node :: rest => node.places ++ placesAll rest

end

/-- All places of a tree are spans of a text. -/
def Node.PointsInto (text : List Char) (node : Node) : Prop :=
  ∀ place ∈ node.places, place.PointsInto text

section

variable {text : List Char}

theorem forall_mem_placesAll {nodes : List Node} :
    (∀ place ∈ placesAll nodes, place.PointsInto text) ↔ ∀ node ∈ nodes, node.PointsInto text := by
  induction nodes with
  | nil => simp [placesAll]
  | cons node rest ih =>
    rw [placesAll, List.forall_mem_append, ih, List.forall_mem_cons]
    rfl

theorem Node.pointsInto_element {tag : Tag} {children : List Node} {span : Span} :
    (Node.element tag children span).PointsInto text ↔
      span.PointsInto text ∧ tag.nameSpan.PointsInto text ∧
        (∀ found ∈ tag.attributes, ∀ place ∈ found.places, place.PointsInto text) ∧
        ∀ child ∈ children, child.PointsInto text := by
  unfold Node.PointsInto
  rw [Node.places, List.forall_mem_cons, List.forall_mem_cons, List.forall_mem_append,
    forall_mem_placesAll]
  simp only [List.mem_flatMap, forall_exists_index, and_imp]
  constructor
  · rintro ⟨whole, named, attributes, below⟩
    exact ⟨whole, named, fun found member place among => attributes place found member among, below⟩
  · rintro ⟨whole, named, attributes, below⟩
    exact ⟨whole, named, fun place found member among => attributes found member place among, below⟩

theorem Node.PointsInto.span {node : Node} (points : node.PointsInto text) :
    node.span.PointsInto text := by
  cases node with
  | element tag children span => exact (Node.pointsInto_element.mp points).1
  | text | block => exact points _ (List.mem_singleton.mpr rfl)

end

/-! ## Parts cover their tokens -/

/-- A first word and what goes on with it, each item ending in a word. -/
theorem covers_words {α : Type} (tokens : α → List Token) (word : α → Word)
    (ends : ∀ item, ∃ before, tokens item = before ++ [(word item).token]) (first : Word)
    (items : List α) :
    (first.span.join (NameTree.lastSpan first.span (items.map word))).Covers
      (first.token :: items.flatMap tokens) := by
  rcases List.eq_nil_or_concat' items with rfl | ⟨others, last, rfl⟩
  · exact first.token.covers
  · obtain ⟨before, isLast⟩ := ends last
    have lastly : NameTree.lastSpan first.span ((others ++ [last]).map word) =
        (word last).span := by
      simp [NameTree.lastSpan]
    rw [lastly, List.flatMap_append, List.flatMap_singleton, isLast, ← List.append_assoc]
    exact first.token.covers.join _ (word last).token.covers

theorem NameTree.covers (tree : NameTree) : tree.span.Covers tree.tokens :=
  covers_words NamePart.tokens NamePart.word (fun part => ⟨[.mark '-' part.dash], rfl⟩) tree.first
    tree.parts

theorem ExpressionTree.covers (tree : ExpressionTree) :
    tree.denoted.span.Covers tree.tokens := by
  cases tree with
  | group delimiter raw inner span =>
    have place : (ExpressionTree.group delimiter raw inner span).denoted.span = span := by
      cases delimiter <;> rfl
    rw [place]
    exact (Token.group delimiter raw inner span).covers
  | path head segments arguments =>
    have words := covers_words Segment.tokens Segment.word
      (fun segment => ⟨segment.joint.tokens, rfl⟩) head segments
    cases arguments with
    | none =>
      rw [tokens, Option.toList_none, List.map_nil, List.append_nil]
      exact words
    | some called => exact words.join [] called.token.covers

theorem ValueTree.covers (tree : ValueTree) : tree.denoted.span.Covers tree.tokens := by
  cases tree with
  | number text span => exact (Token.number text span).covers
  | quoted value raw span => exact (Token.quoted value raw span).covers
  | expression tree => exact tree.covers

theorem AttributeTree.covers (tree : AttributeTree) : tree.denoted.span.Covers tree.tokens :=
  tree.name.covers.join [.mark '=' tree.equals] tree.value.covers

theorem NodeTree.covers (tree : NodeTree) : tree.denoted.span.Covers tree.tokens := by
  obtain ⟨before, token, isLast, stops⟩ := Grammar.exists_last_token tree
  refine ⟨?_, token, by rw [isLast, List.getLast?_concat], stops.symm⟩
  cases tree with
  | single opened | paired opened => exact ⟨.mark '<' opened, rfl, rfl⟩
  | text value raw span => exact ⟨.quoted value raw span, rfl, rfl⟩
  | block raw inner span => exact ⟨.group .brace raw inner span, rfl, rfl⟩

/-! ## What trees denote -/

section

variable {text : List Char}

theorem AttributeTree.places_pointInto (tree : AttributeTree)
    (inOrder : InOrder text tree.tokens) :
    ∀ place ∈ tree.denoted.places, place.PointsInto text := by
  have named := tree.name.covers.pointsInto inOrder.left
  have valued := tree.value.covers.pointsInto inOrder.right.tail
  exact List.forall_mem_cons.mpr ⟨named, List.forall_mem_singleton.mpr valued⟩

theorem AttributeTree.denotedAll_pointInto {trees : List AttributeTree}
    (inOrder : InOrder text (trees.flatMap AttributeTree.tokens)) :
    ∀ found ∈ AttributeTree.denotedAll trees, ∀ place ∈ found.places, place.PointsInto text := by
  intro found member
  obtain ⟨tree, last, rfl⟩ := AttributeTree.mem_denotedAll.mp member
  obtain ⟨before, after, rfl⟩ := List.append_of_mem last.mem
  rw [List.flatMap_append, List.flatMap_cons] at inOrder
  exact tree.places_pointInto inOrder.right.left

namespace NodeTree

mutual

/-- The node that a tree denotes stands where the tokens of the tree stand. -/
theorem denoted_pointsInto (tree : NodeTree) (inOrder : InOrder text tree.tokens) :
    tree.denoted.PointsInto text := by
  have whole := tree.covers.pointsInto inOrder
  cases tree with
  | single opened name attributes slash stop =>
    rw [tokens] at inOrder
    rw [denoted]
    refine Node.pointsInto_element.mpr ⟨whole, ?_, ?_, List.forall_mem_nil _⟩
    · exact name.covers.pointsInto inOrder.tail.left
    · exact AttributeTree.denotedAll_pointInto inOrder.tail.right.left
  | paired opened name attributes greater children less slash closing agree stop =>
    rw [tokens] at inOrder
    rw [denoted]
    refine Node.pointsInto_element.mpr ⟨whole, ?_, ?_, ?_⟩
    · exact name.covers.pointsInto inOrder.tail.left
    · exact AttributeTree.denotedAll_pointInto inOrder.tail.right.left
    · exact denotedAll_pointInto children inOrder.tail.right.right.tail.left
  | text | block => exact List.forall_mem_singleton.mpr whole

theorem denotedAll_pointInto (trees : List NodeTree) (inOrder : InOrder text (tokensAll trees)) :
    ∀ node ∈ denotedAll trees, node.PointsInto text := by
  cases trees with
  | nil =>
    rw [denotedAll]
    exact List.forall_mem_nil _
  | cons tree rest =>
    rw [tokensAll] at inOrder
    rw [denotedAll]
    exact List.forall_mem_cons.mpr ⟨denoted_pointsInto tree inOrder.left,
      denotedAll_pointInto rest inOrder.right⟩

end

end NodeTree

end

namespace Grammar

/-! ## Errors of the parts of a tag -/

section

variable {source : String} {cursor behind : Cursor}

section

variable (standing : cursor.Over source)

include standing

theorem name_errors : FailsOnly (CompileError.OfReadingIn source) (name cursor) :=
  .bind (standing.expectIdentifier _) fun _ _ => .pure _

theorem name_over {text : String} {span : Span} (read : name cursor = .ok (text, span, behind)) :
    span.PointsInto source.toList ∧ behind.Over source := by
  obtain ⟨tree, takes, -, rfl⟩ := name_sound read
  exact ⟨tree.covers.pointsInto (standing.part takes), standing.behind takes⟩

theorem value_errors : FailsOnly (CompileError.OfReadingIn source) (value cursor) := by
  unfold value
  split
  · exact .ok _
  · exact .ok _
  · split
    · refine FailsOnly.map ?_
      unfold Capture.expression
      split
      · exact .ok _
      · dsimp only
        split
        · exact .ok _
        · exact .ok _
      · exact FailsOnly.error_iff.mpr (standing.reports _ standing.current)
    · exact FailsOnly.error_iff.mpr (standing.unexpected _)

theorem attributePair_errors :
    FailsOnly (CompileError.OfReadingIn source) (attributePair cursor) := by
  refine .bind (name_errors standing) ?_
  rintro ⟨text, span, behindName⟩ nameRead
  have standingName := (name_over standing nameRead).2
  refine .bind (standingName.expectMark _ _) ?_
  rintro ⟨mark, behindEquals⟩ equalsRead
  obtain ⟨equals, -, takes⟩ := Cursor.expectMark_eq_ok.mp equalsRead
  exact .bind (value_errors (standingName.behind takes)) fun _ _ => .pure _

theorem attributes_errors (before : Table Attribute) (fuel : Nat) :
    FailsOnly (CompileError.OfReadingIn source) (attributes before fuel cursor) := by
  induction fuel generalizing before cursor with
  | zero => exact FailsOnly.error_iff.mpr (standing.unexpected _)
  | succ fuel ih =>
    rw [attributes]
    split
    · refine .bind (attributePair_errors standing) ?_
      rintro ⟨found, behind⟩ pairRead
      obtain ⟨tree, takes, -⟩ := attributePair_sound pairRead
      exact ih (standing.behind takes) _
    · exact .ok _

end

/-! ## Errors of nodes and units -/

/-- Whatever error stops the reading of a node with some fuel points into the text. -/
def NodeErrorsPoint (source : String) (fuel : Nat) : Prop :=
  ∀ cursor : Cursor, cursor.Over source →
    FailsOnly (CompileError.OfReadingIn source) (node fuel cursor)

/-- The same for children, which may have to point at the name of their parent. -/
def ChildrenErrorsPoint (source : String) (fuel : Nat) : Prop :=
  ∀ (name : String) (nameSpan : Span) (cursor : Cursor), nameSpan.PointsInto source.toList →
    cursor.Over source →
    FailsOnly (CompileError.OfReadingIn source) (children name nameSpan fuel cursor)

theorem nodeErrorsPoint_succ {fuel : Nat} (childrenPoint : ChildrenErrorsPoint source fuel) :
    NodeErrorsPoint source (fuel + 1) := by
  intro cursor standing
  rw [node]
  split
  · refine .bind (name_errors standing.forward) ?_
    rintro ⟨text, span, behindName⟩ nameRead
    obtain ⟨nameSpan, standingName⟩ := name_over standing.forward nameRead
    refine .bind (attributes_errors standingName _ _) ?_
    rintro ⟨own, behindTag⟩ attributesRead
    obtain ⟨trees, tagTakes, -⟩ := attributes_sound attributesRead
    have standingTag := standingName.behind tagTakes
    dsimp only
    split
    · exact .bind (standingTag.forward.expectMark _ _) fun _ _ => .pure _
    · split
      · refine .bind (childrenPoint _ _ _ nameSpan standingTag.forward) ?_
        rintro ⟨inside, behindInside⟩ insideRead
        obtain ⟨below, less, slash, belowTakes, -⟩ :=
          (nodes_and_children_sound fuel).2 _ _ _ _ _ insideRead
        have standingClosing := (standingTag.forward.behind belowTakes).forward.forward
        refine .bind (name_errors standingClosing) ?_
        rintro ⟨closed, closedSpan, behindClosed⟩ closedRead
        obtain ⟨closedPoints, standingClosed⟩ := name_over standingClosing closedRead
        dsimp only
        split
        · exact .bind (standingClosed.expectMark _ _) fun _ _ => .pure _
        · exact FailsOnly.throw_iff.mpr ⟨rfl, standing.carried, closedPoints,
            List.forall_mem_singleton.mpr nameSpan, by rintro _ _ ⟨⟩⟩
      · exact FailsOnly.throw_iff.mpr (standingTag.unexpected _)
  · exact .ok _
  · exact .ok _
  · next written span current =>
    have points := standing.current
    rw [current] at points
    exact FailsOnly.error_iff.mpr (standing.reports _ points)
  · exact FailsOnly.error_iff.mpr (standing.unexpected _)

theorem childrenErrorsPoint_succ {fuel : Nat} (nodesPoint : NodeErrorsPoint source fuel)
    (childrenPoint : ChildrenErrorsPoint source fuel) : ChildrenErrorsPoint source (fuel + 1) := by
  intro name nameSpan cursor named standing
  rw [children]
  split
  · exact .ok _
  · split
    · exact FailsOnly.error_iff.mpr (standing.reports _ named)
    · refine .bind (nodesPoint cursor standing) ?_
      rintro ⟨first, behind⟩ firstRead
      obtain ⟨tree, takes, -⟩ := (nodes_and_children_sound fuel).1 _ _ _ firstRead
      exact .bind (childrenPoint name nameSpan _ named (standing.behind takes)) fun _ _ => .pure _

theorem node_and_children_errors_point (source : String) (fuel : Nat) :
    NodeErrorsPoint source fuel ∧ ChildrenErrorsPoint source fuel := by
  induction fuel with
  | zero =>
    refine ⟨?_, ?_⟩
    · intro cursor standing
      rw [node]
      exact FailsOnly.error_iff.mpr (standing.unexpected _)
    · intro name nameSpan cursor named standing
      rw [children]
      exact FailsOnly.error_iff.mpr (standing.unexpected _)
  | succ fuel ih =>
    exact ⟨nodeErrorsPoint_succ ih.2,
      childrenErrorsPoint_succ ih.1 ih.2⟩

theorem unit_errors (standing : cursor.Over source) :
    FailsOnly (CompileError.OfReadingIn source) (unit cursor) := by
  have finished : ∀ (unit : Source) (rest : Cursor), rest.Over source →
      FailsOnly (CompileError.OfReadingIn source)
        (if rest.atEnd then pure unit else throw rest.superfluous) := by
    intro unit rest standingRest
    split
    · exact .pure unit
    · exact FailsOnly.throw_iff.mpr (standingRest.reports _ standingRest.current)
  unfold unit
  refine .bind ((node_and_children_errors_point source _).1 cursor standing) ?_
  rintro ⟨root, behind⟩ rootRead
  obtain ⟨tree, takes, -⟩ := (nodes_and_children_sound _).1 _ _ _ rootRead
  have standingRoot := standing.behind takes
  dsimp only
  split
  · refine .bind (standingRoot.forward.expectIdentifier _) ?_
    rintro ⟨name, span, rest⟩ nameRead
    have nameTakes := Cursor.expectIdentifier_eq_ok.mp nameRead
    exact finished _ _ (standingRoot.forward.behind nameTakes)
  · exact finished _ _ standingRoot

end

end Grammar

/-! ## Whole units -/

/-- Reading a unit fails with errors of reading only, and these point into the text. -/
theorem parse_errors (source : String) :
    FailsOnly (CompileError.OfReadingIn source) (parse source) := by
  refine .bind (.mapError fun fault faulty => ?_) fun tokens tokensRead => ?_
  · have stands := tokenize_fault faulty
    refine ⟨rfl, rfl, stands.pointsInto, List.forall_mem_nil _, ?_⟩
    rintro cause position ⟨⟩
    exact ⟨rfl, stands.inside⟩
  · exact Grammar.unit_errors (Cursor.over_ofTokens (mapError_eq_ok.mp tokensRead))

/-- Everything in a unit that was read stands in its text. -/
theorem parse_pointsInto {source : String} {unit : Source} (parsed : parse source = .ok unit) :
    unit.root.PointsInto source.toList ∧
      ∀ name span, unit.output = some (name, span) → span.PointsInto source.toList := by
  obtain ⟨tokens, tokensRead, unitRead⟩ := bind_eq_ok.mp parsed
  have inOrder := tokenize_inOrder (mapError_eq_ok.mp tokensRead)
  obtain ⟨tree, derived, rfl⟩ := Grammar.unit_sound unitRead
  rw [← derived] at inOrder
  refine ⟨tree.root.denoted_pointsInto inOrder.left, ?_⟩
  rintro name span annotated
  obtain ⟨⟨colon, word⟩, present, same⟩ := Option.map_eq_some_iff.mp annotated
  cases same
  have annotation := inOrder.right.left
  rw [present] at annotation
  exact annotation.points word.token (by simp)

end Markup

end TypedMarkup
