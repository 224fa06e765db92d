import TypedMarkup.Proofs.Markup.Likeness
import TypedMarkup.Proofs.Markup.Parts
import TypedMarkup.Proofs.Table

/-!
Contract: reading looks at the places of tokens only to see which tokens are adjacent.

Owns: the theorem that sequences that are alike are read alike, as the same unit apart from its
places or with the same message, and the same for each part of a unit.

Both sides take the same branches, so each part is compared bind by bind. Nodes and children go by
induction on the fuel, which is the same on both sides since the sequences have one length.
-/

namespace TypedMarkup

/-! ## Names -/

namespace Markup.Grammar

variable {left right : Position → Position} {cursor other : Cursor}

theorem nameTail_alike (last place : Span) (cursor other : Cursor) {name : String}
    (moved : last.relocate left = place.relocate right)
    (alike : Cursor.Alike left right cursor other)
    (run : Token.RunAlike left right (.identifier name last :: cursor.ahead)
      (.identifier name place :: other.ahead)) :
    (nameTail last cursor).1 = (nameTail place other).1 ∧
      (nameTail last cursor).2.1.relocate left = (nameTail place other).2.1.relocate right ∧
      Cursor.Alike left right (nameTail last cursor).2.2 (nameTail place other).2.2 := by
  have each := alike.ahead.each
  fun_induction nameTail last cursor generalizing place other name with
  | case1 last cursor dash part span more ahead adjacent tail ih =>
    rw [ahead] at run each
    obtain ⟨dashPlace, partPlace, _, there, partMoved⟩ := Token.exists_part_across each
    rw [there] at run
    have otherAdjacent : place.stop.offset = dashPlace.start.offset ∧
        dashPlace.stop.offset = partPlace.start.offset :=
      (and_congr run.adjacent_iff run.tail.adjacent_iff).mp adjacent
    have forward := alike.forward.forward
    have further : Token.RunAlike left right
        (.identifier part span :: cursor.forward.forward.ahead)
        (.identifier part partPlace :: other.forward.forward.ahead) := by
      rw [Cursor.forward_forward_eq_past ahead, Cursor.forward_forward_eq_past there]
      exact run.tail.tail
    obtain ⟨names, places, cursors⟩ :=
      ih _ _ partMoved forward further forward.ahead.each
    rw [nameTail_part there, if_pos otherAdjacent]
    exact ⟨congrArg (part :: ·) names, places, cursors⟩
  | case2 last cursor dash part span more ahead apart =>
    rw [ahead] at run each
    obtain ⟨dashPlace, partPlace, _, there, -⟩ := Token.exists_part_across each
    rw [there] at run
    have otherApart : ¬ (place.stop.offset = dashPlace.start.offset ∧
        dashPlace.stop.offset = partPlace.start.offset) :=
      mt (and_congr run.adjacent_iff run.tail.adjacent_iff).mpr apart
    rw [nameTail_part there, if_neg otherApart]
    exact ⟨rfl, moved, alike⟩
  | case3 last cursor different =>
    have otherDifferent : ∀ dash part span rest,
        other.ahead = .mark '-' dash :: .identifier part span :: rest → False := by
      intro dash part span rest there
      rw [there] at each
      obtain ⟨_, _, _, ahead, -⟩ := Token.exists_part_across (Token.forall₂_symm each)
      exact different _ _ _ _ ahead
    rw [nameTail_end otherDifferent]
    exact ⟨rfl, moved, alike⟩

/-- Two names that are read, with their places and the places behind them, are alike. -/
def NameAlike (left right : Position → Position) (found there : String × Span × Cursor) : Prop :=
  found.1 = there.1 ∧ found.2.1.relocate left = there.2.1.relocate right ∧
    Cursor.Alike left right found.2.2 there.2.2

theorem name_alike (alike : Cursor.Alike left right cursor other) :
    Corresponds CompileError.SaysAlike (NameAlike left right) (name cursor) (name other) := by
  refine (alike.expectIdentifier _).bind ?_
  rintro ⟨first, span, behind⟩ ⟨_, place, otherBehind⟩ ⟨rfl, moved, behindAlike, run⟩
  obtain ⟨names, places, cursors⟩ :=
    nameTail_alike span place behind otherBehind moved behindAlike run
  refine ⟨?_, ?_, cursors⟩
  · exact congrArg (fun parts => "-".intercalate (first :: parts)) names
  · exact congrArg₂ Span.join moved places

/-! ## Expressions and attributes -/

/-- Two parts that are read are alike apart from their places, and so are the places behind. -/
def PartAlike {α : Type} (left right : Position → Position)
    (relocate : (Position → Position) → α → α) (found there : α × Cursor) : Prop :=
  relocate left found.1 = relocate right there.1 ∧ Cursor.Alike left right found.2 there.2

theorem pathTail_alike (last place : Span) (cursor other : Cursor)
    (moved : last.relocate left = place.relocate right)
    (alike : Cursor.Alike left right cursor other) :
    (Capture.pathTail last cursor).1 = (Capture.pathTail place other).1 ∧
      (Capture.pathTail last cursor).2.1.relocate left =
        (Capture.pathTail place other).2.1.relocate right ∧
      Cursor.Alike left right (Capture.pathTail last cursor).2.2
        (Capture.pathTail place other).2.2 := by
  have each := alike.ahead.each
  fun_induction Capture.pathTail last cursor generalizing place other with
  | case1 last cursor point part span more ahead tail ih =>
    rw [ahead] at each
    obtain ⟨_, _, _, there, partMoved⟩ := Token.exists_part_across each
    have forward := alike.forward.forward
    obtain ⟨names, places, cursors⟩ := ih _ _ partMoved forward forward.ahead.each
    rw [pathTail_point there]
    exact ⟨congrArg (part :: ·) names, places, cursors⟩
  | case2 last cursor first second part span more ahead adjacent tail ih =>
    have run := alike.ahead
    rw [ahead] at each run
    obtain ⟨firstPlace, _, there, behind⟩ := Token.exists_mark_across each
    obtain ⟨secondPlace, _, _, rfl, partMoved⟩ := Token.exists_part_across behind
    rw [there] at run
    have otherAdjacent : firstPlace.stop.offset = secondPlace.start.offset :=
      run.adjacent_iff.mp adjacent
    have forward := alike.forward.forward.forward
    obtain ⟨names, places, cursors⟩ := ih _ _ partMoved forward forward.ahead.each
    rw [pathTail_colons there, if_pos otherAdjacent]
    exact ⟨congrArg (part :: ·) names, places, cursors⟩
  | case3 last cursor first second part span more ahead apart =>
    have run := alike.ahead
    rw [ahead] at each run
    obtain ⟨firstPlace, _, there, behind⟩ := Token.exists_mark_across each
    obtain ⟨secondPlace, _, _, rfl, -⟩ := Token.exists_part_across behind
    rw [there] at run
    have otherApart : ¬ firstPlace.stop.offset = secondPlace.start.offset :=
      mt run.adjacent_iff.mpr apart
    rw [pathTail_colons there, if_neg otherApart]
    exact ⟨rfl, moved, alike⟩
  | case4 last cursor notPoint notColons =>
    have back := Token.forall₂_symm each
    have otherNotPoint : ∀ point part span rest,
        other.ahead = .mark '.' point :: .identifier part span :: rest → False := by
      intro point part span rest there
      rw [there] at back
      obtain ⟨_, _, _, ahead, -⟩ := Token.exists_part_across back
      exact notPoint _ _ _ _ ahead
    have otherNotColons : ∀ first second part span rest,
        other.ahead = .mark ':' first :: .mark ':' second :: .identifier part span :: rest →
          False := by
      intro first second part span rest there
      rw [there] at back
      obtain ⟨_, _, ahead, behind⟩ := Token.exists_mark_across back
      obtain ⟨_, _, _, rfl, -⟩ := Token.exists_part_across behind
      exact notColons _ _ _ _ _ ahead
    rw [pathTail_end otherNotPoint otherNotColons]
    exact ⟨rfl, moved, alike⟩

theorem groupExpression_alike {delimiter : Delimiter} {token there : Token}
    (code : Capture.hostCode token = Capture.hostCode there)
    (moved : token.span.relocate left = there.span.relocate right) :
    (Capture.groupExpression delimiter token).relocate left =
      (Capture.groupExpression delimiter there).relocate right := by
  cases delimiter <;> simp only [Capture.groupExpression, Expression.relocate, code, moved]

section

variable (alike : Cursor.Alike left right cursor other)

include alike

theorem expression_alike :
    Corresponds CompileError.SaysAlike (PartAlike left right Expression.relocate)
      (Capture.expression cursor) (Capture.expression other) := by
  have current := alike.current
  unfold Capture.expression
  generalize cursor.current = token at current
  generalize other.current = there at current
  cases current with
  | group delimiter raw code moved => exact ⟨groupExpression_alike code moved, alike.forward⟩
  | @identifier head span place moved =>
    obtain ⟨names, places, cursors⟩ := pathTail_alike span place _ _ moved alike.forward
    dsimp only
    rw [cursors.current.isGroup_eq, names]
    split
    · next isParen =>
      have arguments := cursors.current
      refine ⟨?_, cursors.forward⟩
      have whole := congrArg₂ Span.join (congrArg₂ Span.join moved places) arguments.moved_span
      simp only [Expression.relocate, Span.relocate_join,
            arguments.hostCode_eq ⟨.paren, isParen⟩, whole]
    · exact ⟨congrArg (Expression.path head _) (congrArg₂ Span.join moved places), cursors⟩
  | _ => exact ⟨rfl, rfl, rfl⟩

theorem atExpression_eq : Capture.atExpression cursor = Capture.atExpression other := by
  have current := alike.current
  unfold Capture.atExpression
  generalize cursor.current = token at current
  generalize other.current = there at current
  cases current <;> rfl

theorem value_alike :
    Corresponds CompileError.SaysAlike (PartAlike left right AttributeValue.relocate)
      (value cursor) (value other) := by
  have captured : Corresponds CompileError.SaysAlike (PartAlike left right AttributeValue.relocate)
      (if Capture.atExpression cursor then
        (Capture.expression cursor).map fun found => (AttributeValue.expression found.1, found.2)
      else .error (cursor.unexpected [Label.literal, Label.identifier, Label.group]))
      (if Capture.atExpression other then
        (Capture.expression other).map fun found => (AttributeValue.expression found.1, found.2)
      else .error (other.unexpected [Label.literal, Label.identifier, Label.group])) := by
    rw [atExpression_eq alike]
    split
    · apply (expression_alike alike).map
      intro found there same
      exact ⟨congrArg AttributeValue.expression same.1, same.2⟩
    · exact alike.unexpected _
  have current := alike.current
  unfold value
  generalize cursor.current = token at current
  generalize other.current = there at current
  cases current with
  | number text moved =>
    exact ⟨congrArg (AttributeValue.literal text text false) moved, alike.forward⟩
  | quoted value raw moved =>
    exact ⟨congrArg (AttributeValue.literal value raw true) moved, alike.forward⟩
  | _ => exact captured

theorem attributePair_alike :
    Corresponds CompileError.SaysAlike (PartAlike left right Attribute.relocate)
      (attributePair cursor) (attributePair other) := by
  refine (name_alike alike).bind ?_
  rintro ⟨name, nameSpan, behindName⟩ ⟨_, namePlace, otherName⟩ ⟨rfl, moved, nameAlike⟩
  refine (nameAlike.expectMark '=' _).bind ?_
  rintro ⟨_, behindEquals⟩ ⟨_, otherEquals⟩ ⟨-, equalsAlike⟩
  refine (value_alike equalsAlike).bind ?_
  rintro ⟨value, behind⟩ ⟨there, otherBehind⟩ ⟨same, behindAlike⟩
  refine ⟨?_, behindAlike⟩
  have spans : value.span.relocate left = there.span.relocate right := by
    rw [← AttributeValue.span_relocate, ← AttributeValue.span_relocate]
    exact congrArg AttributeValue.span same
  dsimp only at same moved
  simp only [Attribute.relocate, Span.relocate_join, same, moved, spans]

end

/-- The attributes read so far, by their keys, with their places changed. -/
def relocateRead (move : Position → Position) (read : Table Attribute) : Table Attribute :=
  read.map (Prod.map id (Attribute.relocate move))

theorem attributes_alike (fuel : Nat) {read readThere : Table Attribute}
    (same : relocateRead left read = relocateRead right readThere)
    (alike : Cursor.Alike left right cursor other) :
    Corresponds CompileError.SaysAlike
      (PartAlike left right fun move => List.map (Attribute.relocate move))
      (attributes read fuel cursor) (attributes readThere fuel other) := by
  induction fuel generalizing read readThere cursor other with
  | zero => exact alike.unexpected _
  | succ fuel ih =>
    rw [attributes, attributes, alike.current.isIdentifier_eq]
    split
    · refine (attributePair_alike alike).bind ?_
      rintro ⟨found, behind⟩ ⟨there, otherBehind⟩ ⟨sameFound, behindAlike⟩
      apply ih _ behindAlike
      dsimp only at sameFound
      have names : found.name = there.name :=
        show (found.relocate left).name = (there.relocate right).name by rw [sameFound]
      unfold relocateRead at same ⊢
      rw [Table.map_put, Table.map_put, same, sameFound, names]
    · refine ⟨?_, alike⟩
      have values := congrArg (List.map Prod.snd) same
      simp only [relocateRead, List.map_map] at values ⊢
      exact values

/-! ## Nodes and units -/

def NodesAlike (left right : Position → Position) (fuel : Nat) : Prop :=
  ∀ cursor other : Cursor, Cursor.Alike left right cursor other →
    Corresponds CompileError.SaysAlike (PartAlike left right Node.relocate)
      (node fuel cursor) (node fuel other)

/-- The same for children. The place of the name is that of an error only. -/
def ChildrenAlike (left right : Position → Position) (fuel : Nat) : Prop :=
  ∀ (name : String) (nameSpan namePlace : Span) (cursor other : Cursor),
    Cursor.Alike left right cursor other →
    Corresponds CompileError.SaysAlike (PartAlike left right Node.relocateAll)
      (children name nameSpan fuel cursor) (children name namePlace fuel other)

theorem relocate_element_eq {tag there : Tag} {below others : List Node} {span place : Span}
    (tags : tag.relocate left = there.relocate right)
    (inside : Node.relocateAll left below = Node.relocateAll right others)
    (moved : span.relocate left = place.relocate right) :
    (Node.element tag below span).relocate left =
    (Node.element there others place).relocate right := by
  rw [Node.relocate, Node.relocate, tags, inside, moved]

theorem relocate_tag_eq {own others : List Attribute} {nameSpan namePlace : Span} (name : String)
    (selfClosing : Bool)
    (same : own.map (Attribute.relocate left) = others.map (Attribute.relocate right))
    (moved : nameSpan.relocate left = namePlace.relocate right) :
    Tag.relocate left ⟨name, own, selfClosing, nameSpan⟩ =
      Tag.relocate right ⟨name, others, selfClosing, namePlace⟩ := by
  simp only [Tag.relocate, same, moved]

theorem nodesAlike_succ {fuel : Nat} (childrenAlike : ChildrenAlike left right fuel) :
    NodesAlike left right (fuel + 1) := by
  intro cursor other alike
  have current := alike.current
  rw [node, node]
  generalize cursor.current = token at current
  generalize other.current = there at current
  cases current with
  | quoted value raw moved => exact ⟨by rw [Node.relocate, Node.relocate, moved], alike.forward⟩
  | number text moved => exact ⟨rfl, rfl, rfl⟩
  | group delimiter raw code moved =>
    cases delimiter with
    | brace =>
      refine ⟨?_, alike.forward⟩
      rw [Node.relocate, Node.relocate, groupExpression_alike code moved]
    | _ => exact alike.unexpected _
  | @mark character span place moved =>
    split
    · next same =>
      cases same
      refine (name_alike alike.forward).bind ?_
      rintro ⟨name, nameSpan, behindName⟩ ⟨_, namePlace, otherName⟩ ⟨rfl, nameMoved, nameAlike⟩
      dsimp only
      rw [nameAlike.length_eq]
      have none : relocateRead left [] = relocateRead right [] := rfl
      refine (attributes_alike _ none nameAlike).bind ?_
      rintro ⟨own, behind⟩ ⟨others, otherBehind⟩ ⟨same, behindAlike⟩
      dsimp only
      rw [behindAlike.atMark_eq, behindAlike.atMark_eq]
      split
      · refine (behindAlike.forward.expectMark '>' _).bind ?_
        rintro ⟨close, rest⟩ ⟨otherClose, otherRest⟩ ⟨closeAlike, restAlike⟩
        refine ⟨?_, restAlike⟩
        exact relocate_element_eq (relocate_tag_eq name true same nameMoved) rfl
          (congrArg₂ Span.join moved closeAlike.moved_span)
      · split
        · refine (childrenAlike name _ _ _ _ behindAlike.forward).bind ?_
          rintro ⟨below, behindBelow⟩ ⟨otherBelow, otherBehindBelow⟩ ⟨inside, belowAlike⟩
          refine (name_alike belowAlike.forward.forward).bind ?_
          rintro ⟨closed, closedSpan, behindClosed⟩ ⟨_, closedPlace, otherClosed⟩
            ⟨rfl, -, closedAlike⟩
          dsimp only
          split
          · refine (closedAlike.expectMark '>' _).bind ?_
            rintro ⟨stop, rest⟩ ⟨otherStop, otherRest⟩ ⟨stopAlike, restAlike⟩
            refine ⟨?_, restAlike⟩
            exact relocate_element_eq (relocate_tag_eq name false same nameMoved) inside
              (congrArg₂ Span.join moved stopAlike.moved_span)
          · exact ⟨rfl, rfl, rfl⟩
        · exact behindAlike.unexpected _
    · next same => cases same
    · next same => cases same
    · next same => cases same
    · next notLess _ _ _ =>
      split
      · next same =>
        cases same
        exact absurd rfl (notLess span)
      · next same => cases same
      · next same => cases same
      · next same => cases same
      · exact alike.unexpected _
  | _ => exact alike.unexpected _

theorem childrenAlike_succ {fuel : Nat} (nodesAlike : NodesAlike left right fuel)
    (childrenAlike : ChildrenAlike left right fuel) : ChildrenAlike left right (fuel + 1) := by
  intro name nameSpan namePlace cursor other alike
  rw [children, children, alike.atMark_eq, alike.atMark_eq, alike.atEnd_eq]
  split
  · exact ⟨rfl, alike⟩
  · split
    · exact ⟨rfl, rfl, rfl⟩
    · refine (nodesAlike _ _ alike).bind ?_
      rintro ⟨first, behind⟩ ⟨otherFirst, otherBehind⟩ ⟨sameFirst, behindAlike⟩
      refine (childrenAlike name nameSpan namePlace _ _ behindAlike).bind ?_
      rintro ⟨rest, stop⟩ ⟨otherRest, otherStop⟩ ⟨sameRest, stopAlike⟩
      refine ⟨?_, stopAlike⟩
      dsimp only at sameFirst sameRest
      rw [Node.relocateAll, Node.relocateAll, sameFirst, sameRest]

theorem nodes_and_children_alike (fuel : Nat) :
    NodesAlike left right fuel ∧ ChildrenAlike left right fuel := by
  induction fuel with
  | zero =>
    exact ⟨fun _ _ alike => alike.unexpected _, fun _ _ _ _ _ alike => alike.unexpected _⟩
  | succ fuel ih =>
    exact ⟨nodesAlike_succ ih.2,
      childrenAlike_succ ih.1 ih.2⟩

/-- The end of a unit: nothing may stand behind it. -/
theorem unitEnd_alike {root otherRoot : Node} {output otherOutput : Option (String × Span)}
    (sameRoot : root.relocate left = otherRoot.relocate right)
    (sameOutput : (output.map fun found => (found.1, found.2.relocate left)) =
      otherOutput.map fun found => (found.1, found.2.relocate right))
    (alike : Cursor.Alike left right cursor other) :
    Corresponds CompileError.SaysAlike
      (fun found there : Source => found.relocate left = there.relocate right)
      (if cursor.atEnd then pure ⟨root, output, root.span.join cursor.previous.span⟩
        else throw cursor.superfluous)
      (if other.atEnd then pure ⟨otherRoot, otherOutput, otherRoot.span.join other.previous.span⟩
        else throw other.superfluous) := by
  rw [alike.atEnd_eq]
  split
  · have spans : root.span.relocate left = otherRoot.span.relocate right := by
      rw [← Node.span_relocate, ← Node.span_relocate, sameRoot]
    have whole := congrArg₂ Span.join spans alike.previous.moved_span
    change Source.relocate left _ = Source.relocate right _
    simp only [Source.relocate, Span.relocate_join, sameRoot, sameOutput, whole]
  · exact ⟨rfl, rfl, rfl⟩

theorem unit_alike (alike : Cursor.Alike left right cursor other) :
    Corresponds CompileError.SaysAlike
      (fun found there => found.relocate left = there.relocate right)
      (unit cursor) (unit other) := by
  unfold unit
  rw [alike.length_eq]
  refine ((nodes_and_children_alike _).1 _ _ alike).bind ?_
  rintro ⟨root, behind⟩ ⟨otherRoot, otherBehind⟩ ⟨sameRoot, behindAlike⟩
  dsimp only
  rw [behindAlike.atMark_eq]
  split
  · refine (behindAlike.forward.expectIdentifier _).bind ?_
    rintro ⟨name, span, rest⟩ ⟨_, place, otherRest⟩ ⟨rfl, moved, restAlike, -⟩
    exact unitEnd_alike sameRoot (congrArg (fun found => some (name, found)) moved) restAlike
  · exact unitEnd_alike sameRoot rfl behindAlike

end Markup.Grammar

end TypedMarkup
