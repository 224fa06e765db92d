import TypedMarkup.Markup.Grammar
import TypedMarkup.Proofs.Markup.Derivation
import TypedMarkup.Proofs.Success
import TypedMarkup.Proofs.Token.Cursor

/-!
Contract: reading the parts of a tag finds their derivations.

Owns: for names, expressions and attributes, that reading succeeds only on the tokens of a tree and
on all of them, with what the tree denotes and the place behind its tokens. A name or a path is read
as far as it goes, so what stands behind its tokens must not go on with it.

Does not own: nodes and units, which the parts are put together to.
-/

namespace TypedMarkup.Markup

open NameTree

theorem NameTree.lastSpan_cons (span : Span) (word : Word) (words : List Word) :
    lastSpan span (word :: words) = lastSpan word.span words := by
  unfold lastSpan
  rw [List.getLast?_cons]
  cases words.getLast? <;> rfl

namespace Grammar

/-! ## Names -/

section

variable {last : Span} {cursor : Cursor}

theorem nameTail_part {last dash span : Span} {part : String} {rest : List Token}
    (ahead : cursor.ahead = .mark '-' dash :: .identifier part span :: rest) :
    nameTail last cursor =
      if last.stop.offset = dash.start.offset ∧ dash.stop.offset = span.start.offset then
        let tail := nameTail span cursor.forward.forward
        (part :: tail.1, tail.2)
      else ([], last, cursor) := by
  rw [nameTail]
  split
  · next same =>
    cases ahead.symm.trans same
    rfl
  · next different => exact absurd ahead (different _ _ _ _)

theorem nameTail_end {last : Span}
    (different : ∀ dash part span rest,
      cursor.ahead = .mark '-' dash :: .identifier part span :: rest → False) :
    nameTail last cursor = ([], last, cursor) := by
  rw [nameTail]
  split
  · next same => exact absurd same (different _ _ _ _)
  · rfl

theorem nameTail_sound (last : Span) (cursor : Cursor) :
    ∃ parts behind, Chained last parts ∧ cursor.Takes (parts.flatMap NamePart.tokens) behind ∧
      nameTail last cursor = (parts.map fun part => part.word.name,
        lastSpan last (parts.map NamePart.word), behind) := by
  fun_induction nameTail last cursor with
  | case1 last cursor dash name span more ahead adjacent tail ih =>
    obtain ⟨parts, behind, chained, takes, tailRead⟩ := ih
    refine ⟨⟨dash, name, span⟩ :: parts, behind, ⟨adjacent.1, adjacent.2, chained⟩,
      (Cursor.takes_two ahead).trans takes, ?_⟩
    have tailEq : tail = _ := tailRead
    rw [tailEq, List.map_cons, List.map_cons, lastSpan_cons]
  | case2 last cursor | case3 last cursor => exact ⟨[], cursor, trivial, cursor.takes_nil, rfl⟩

theorem nameTail_complete {last : Span} {parts : List NamePart} {cursor behind : Cursor}
    (chained : Chained last parts) (takes : cursor.Takes (parts.flatMap NamePart.tokens) behind)
    (stops : beginsNamePart behind.ahead = false) :
    nameTail last cursor = (parts.map fun part => part.word.name,
      lastSpan last (parts.map NamePart.word), behind) := by
  induction parts generalizing last cursor with
  | nil =>
    cases takes.eq_of_nil
    apply nameTail_end
    intro dash name span more begins
    rw [begins] at stops
    cases stops
  | cons part parts ih =>
    obtain ⟨dash, name, span⟩ := part
    obtain ⟨dashFollows, wordFollows, further⟩ := chained
    rw [nameTail_part takes.1, if_pos ⟨dashFollows, wordFollows⟩, ih further takes.tail.tail,
      List.map_cons, List.map_cons, lastSpan_cons]

theorem name_sound {cursor behind : Cursor} {text : String} {span : Span}
    (read : name cursor = .ok (text, span, behind)) :
    ∃ tree : NameTree, cursor.Takes tree.tokens behind ∧ text = tree.text ∧ span = tree.span := by
  obtain ⟨⟨first, firstSpan, behindFirst⟩, firstRead, same⟩ := bind_eq_ok.mp read
  obtain ⟨parts, place, chained, takes, tailRead⟩ := nameTail_sound firstSpan behindFirst
  dsimp only at same
  rw [tailRead] at same
  cases pure_eq_ok.mp same
  exact ⟨⟨⟨first, firstSpan⟩, parts, chained⟩,
    (Cursor.expectIdentifier_eq_ok.mp firstRead).trans takes, rfl, rfl⟩

theorem name_complete {cursor behind : Cursor} (tree : NameTree)
    (takes : cursor.Takes tree.tokens behind) (stops : beginsNamePart behind.ahead = false) :
    name cursor = .ok (tree.text, tree.span, behind) := by
  obtain ⟨⟨first, firstSpan⟩, parts, chained⟩ := tree
  refine bind_eq_ok.mpr
    ⟨(first, firstSpan, _), Cursor.expectIdentifier_eq_ok.mpr takes.first, ?_⟩
  dsimp only
  rw [nameTail_complete chained takes.tail stops]
  rfl

end

/-! ## Expressions -/

section

variable {last : Span} {cursor behind : Cursor}

section

variable {rest : List Token} {part : String} {last : Span} {before : Table Attribute} {fuel : Nat}

theorem pathTail_point {last point span : Span}
    (ahead : cursor.ahead = .mark '.' point :: .identifier part span :: rest) :
    Capture.pathTail last cursor =
      (part :: (Capture.pathTail span cursor.forward.forward).1,
        (Capture.pathTail span cursor.forward.forward).2) := by
  rw [Capture.pathTail]
  split
  · next same =>
    cases ahead.symm.trans same
    rfl
  · next same => cases ahead.symm.trans same
  · next notPoint _ => exact absurd ahead (notPoint _ _ _ _)

/-- One segment more of a path, behind two colons, if these are adjacent. -/
theorem pathTail_colons {last first second span : Span}
    (ahead : cursor.ahead = .mark ':' first :: .mark ':' second :: .identifier part span :: rest) :
    Capture.pathTail last cursor =
      if first.stop.offset = second.start.offset then
        let tail := Capture.pathTail span cursor.forward.forward.forward
        (part :: tail.1, tail.2)
      else ([], last, cursor) := by
  rw [Capture.pathTail]
  split
  · next same => cases ahead.symm.trans same
  · next same =>
    cases ahead.symm.trans same
    rfl
  · next _ notColons => exact absurd ahead (notColons _ _ _ _ _)

theorem pathTail_end
    (notPoint : ∀ point part span rest,
      cursor.ahead = .mark '.' point :: .identifier part span :: rest → False)
    (notColons : ∀ first second part span rest,
      cursor.ahead = .mark ':' first :: .mark ':' second :: .identifier part span :: rest → False) :
    Capture.pathTail last cursor = ([], last, cursor) := by
  rw [Capture.pathTail]
  split
  · next same => exact absurd same (notPoint _ _ _ _)
  · next same => exact absurd same (notColons _ _ _ _ _)
  · rfl

theorem pathTail_sound (last : Span) (cursor : Cursor) :
    ∃ (segments : List Segment) (behind : Cursor),
      cursor.Takes (segments.flatMap Segment.tokens) behind ∧
      Capture.pathTail last cursor = (segments.map fun segment => segment.word.name,
        lastSpan last (segments.map Segment.word), behind) := by
  fun_induction Capture.pathTail last cursor with
  | case1 last cursor point name span more ahead tail ih =>
    obtain ⟨segments, behind, takes, tailRead⟩ := ih
    refine ⟨⟨.point point, name, span⟩ :: segments, behind,
      (Cursor.takes_two ahead).trans takes, ?_⟩
    have tailEq : tail = _ := tailRead
    rw [tailEq, List.map_cons, List.map_cons, lastSpan_cons]
  | case2 last cursor first second name span more ahead adjacent tail ih =>
    obtain ⟨segments, behind, takes, tailRead⟩ := ih
    have word : cursor.forward.Takes [.mark ':' second, .identifier name span] _ :=
      Cursor.takes_two (by rw [Cursor.forward_eq_past ahead, Cursor.past_ahead])
    refine ⟨⟨.colons first second adjacent, name, span⟩ :: segments, behind,
      (Cursor.takes_of_ahead ahead).trans (word.trans takes), ?_⟩
    have tailEq : tail = _ := tailRead
    rw [tailEq, List.map_cons, List.map_cons, lastSpan_cons]
  | case3 last cursor | case4 last cursor => exact ⟨[], cursor, cursor.takes_nil, rfl⟩

theorem pathTail_complete {segments : List Segment} {cursor : Cursor}
    (takes : cursor.Takes (segments.flatMap Segment.tokens) behind)
    (stops : beginsSegment behind.ahead = false) :
    Capture.pathTail last cursor = (segments.map fun segment => segment.word.name,
      lastSpan last (segments.map Segment.word), behind) := by
  induction segments generalizing last cursor with
  | nil =>
    cases takes.eq_of_nil
    apply pathTail_end
    all_goals
      intros
      next begins =>
        rw [begins] at stops
        cases stops
  | cons segment segments ih =>
    obtain ⟨joint, name, span⟩ := segment
    cases joint with
    | point point =>
      rw [pathTail_point takes.1, ih takes.tail.tail, List.map_cons, List.map_cons, lastSpan_cons]
    | colons first second adjacent =>
      rw [pathTail_colons takes.1, if_pos adjacent, ih takes.tail.tail.tail, List.map_cons,
        List.map_cons, lastSpan_cons]

theorem exists_of_isParen (isParen : cursor.current.isGroup .paren = true) :
    ∃ called : Arguments, cursor.current = called.token := by
  unfold Token.isGroup at isParen
  split at isParen
  · next delimiter raw inner span found =>
    cases eq_of_beq isParen
    exact ⟨⟨raw, inner, span⟩, found⟩
  · cases isParen

theorem isGroup_current_of_stops (stops : beginsArguments cursor.ahead = false) :
    cursor.current.isGroup .paren = false := by
  cases ahead : cursor.ahead with
  | nil => simp [Cursor.current, Cursor.peek, ahead, Token.isGroup]
  | cons token rest =>
    rw [ahead] at stops
    rwa [Cursor.current_eq ahead]

theorem expression_sound {captured : Expression}
    (read : Capture.expression cursor = .ok (captured, behind)) :
    ∃ tree : ExpressionTree, cursor.Takes tree.tokens behind ∧ captured = tree.denoted := by
  unfold Capture.expression at read
  split at read
  · next delimiter raw inner span found =>
    cases read
    exact ⟨.group delimiter raw inner span, Cursor.takes_forward found (by simp), rfl⟩
  · next head span found =>
    have headTakes := Cursor.takes_forward found (by simp)
    obtain ⟨segments, place, takes, tailRead⟩ := pathTail_sound span cursor.forward
    dsimp only at read
    rw [tailRead] at read
    dsimp only at read
    split at read
    · next isParen =>
      obtain ⟨called, current⟩ := exists_of_isParen isParen
      have callTakes := Cursor.takes_forward current (by simp [Arguments.token])
      rw [current] at read
      cases read
      exact ⟨.path ⟨head, span⟩ segments (some called),
        headTakes.trans (takes.trans callTakes), rfl⟩
    · cases read
      exact ⟨.path ⟨head, span⟩ segments none,
        headTakes.trans (takes.trans (Cursor.takes_nil _)), rfl⟩
  · cases read

theorem expression_complete (tree : ExpressionTree) (takes : cursor.Takes tree.tokens behind)
    (ends : endsPart behind.ahead = true) :
    Capture.expression cursor = .ok (tree.denoted, behind) := by
  cases tree with
  | group delimiter raw inner span =>
    rw [Capture.expression, Cursor.Takes.head takes, Cursor.Takes.forward takes]
    rfl
  | path head segments arguments =>
    obtain ⟨place, segmentsTake, argumentsTake⟩ := (Cursor.Takes.tail takes).split
    have stops : beginsSegment place.ahead = false := by
      rw [argumentsTake.1]
      exact beginsSegment_arguments arguments ends
    have current : cursor.current = .identifier head.name head.span := Cursor.Takes.head takes
    rw [Capture.expression, current]
    dsimp only
    rw [pathTail_complete segmentsTake stops]
    dsimp only
    cases arguments with
    | none =>
      cases Cursor.Takes.eq_of_nil argumentsTake
      rw [isGroup_current_of_stops (endsPart_cases ends).2.2]
      rfl
    | some called =>
      have call : place.Takes [called.token] behind := argumentsTake
      rw [call.head, call.forward]
      rfl

/-! ## Attributes -/

theorem value_sound {found : AttributeValue} (read : value cursor = .ok (found, behind)) :
    ∃ tree : ValueTree, cursor.Takes tree.tokens behind ∧ found = tree.denoted := by
  unfold value at read
  split at read
  · next text span current =>
    cases read
    exact ⟨.number text span, Cursor.takes_forward current (by simp), rfl⟩
  · next decoded raw span current =>
    cases read
    exact ⟨.quoted decoded raw span, Cursor.takes_forward current (by simp), rfl⟩
  · split at read
    · obtain ⟨⟨captured, place⟩, captures, same⟩ := map_eq_ok.mp read
      cases same
      obtain ⟨tree, takes, rfl⟩ := expression_sound captures
      exact ⟨.expression tree, takes, rfl⟩
    · cases read

theorem value_complete (tree : ValueTree) (takes : cursor.Takes tree.tokens behind)
    (ends : endsPart behind.ahead = true) : value cursor = .ok (tree.denoted, behind) := by
  cases tree with
  | number | quoted =>
    rw [value, Cursor.Takes.head takes, Cursor.Takes.forward takes]
    rfl
  | expression tree =>
    have captures := expression_complete tree takes ends
    cases tree with
    | group delimiter raw inner span =>
      have current : cursor.current = .group delimiter raw inner span := Cursor.Takes.head takes
      rw [value, current, Capture.atExpression, current, captures]
      rfl
    | path head segments arguments =>
      have current : cursor.current = head.token := Cursor.Takes.head takes
      rw [value, current, Capture.atExpression, current, captures]
      rfl

theorem attributePair_sound {found : Attribute}
    (read : attributePair cursor = .ok (found, behind)) :
    ∃ tree : AttributeTree, cursor.Takes tree.tokens behind ∧ found = tree.denoted := by
  obtain ⟨⟨text, span, behindName⟩, nameRead, behindNameRead⟩ := bind_eq_ok.mp read
  obtain ⟨⟨mark, behindEquals⟩, equalsRead, behindEqualsRead⟩ := bind_eq_ok.mp behindNameRead
  obtain ⟨⟨found, behindValue⟩, valueRead, same⟩ := bind_eq_ok.mp behindEqualsRead
  obtain ⟨name, nameTakes, rfl, rfl⟩ := name_sound nameRead
  obtain ⟨equals, rfl, equalsTakes⟩ := Cursor.expectMark_eq_ok.mp equalsRead
  obtain ⟨tree, valueTakes, rfl⟩ := value_sound valueRead
  cases pure_eq_ok.mp same
  exact ⟨⟨name, equals, tree⟩, nameTakes.trans (equalsTakes.trans valueTakes), rfl⟩

theorem attributePair_complete (tree : AttributeTree) (takes : cursor.Takes tree.tokens behind)
    (ends : endsPart behind.ahead = true) :
    attributePair cursor = .ok (tree.denoted, behind) := by
  obtain ⟨behindName, nameTakes, equalsTakes⟩ := Cursor.Takes.split takes
  exact bind_eq_ok.mpr ⟨_, name_complete tree.name nameTakes (by rw [equalsTakes.1]; rfl),
    bind_eq_ok.mpr ⟨_, Cursor.expectMark_eq_ok.mpr ⟨_, rfl, equalsTakes.first⟩,
      bind_eq_ok.mpr ⟨_, value_complete tree.value equalsTakes.tail ends, rfl⟩⟩⟩

/-- The entries that the attributes of a start tag are kept as while they are read. -/
def entriesOf (trees : List AttributeTree) : List (String × Attribute) :=
  trees.map fun tree => (keyOf tree.name.text, tree.denoted)

theorem attributes_sound {found : List Attribute}
    (read : attributes before fuel cursor = .ok (found, behind)) :
    ∃ trees : List AttributeTree, cursor.Takes (trees.flatMap AttributeTree.tokens) behind ∧
      found = (before.putAll (entriesOf trees)).map Prod.snd := by
  induction fuel generalizing before cursor with
  | zero => cases read
  | succ fuel ih =>
    rw [attributes] at read
    split at read
    · obtain ⟨⟨first, behindFirst⟩, firstRead, restRead⟩ := bind_eq_ok.mp read
      obtain ⟨tree, firstTakes, rfl⟩ := attributePair_sound firstRead
      obtain ⟨trees, restTakes, rfl⟩ := ih restRead
      exact ⟨tree :: trees, firstTakes.trans restTakes, rfl⟩
    · cases read
      exact ⟨[], Cursor.takes_nil _, rfl⟩

theorem attributes_complete (trees : List AttributeTree)
    (takes : cursor.Takes (trees.flatMap AttributeTree.tokens) behind)
    (stops : beginsAttribute behind.ahead = false) (ends : endsPart behind.ahead = true)
    (enough : trees.length < fuel) :
    attributes before fuel cursor =
      .ok ((before.putAll (entriesOf trees)).map Prod.snd, behind) := by
  induction trees generalizing before cursor fuel with
  | nil =>
    obtain ⟨fuel, rfl⟩ := Nat.exists_eq_add_of_lt enough
    cases takes.eq_of_nil
    have notWord : behind.current.isIdentifier = false := by
      cases ahead : behind.ahead with
      | nil => simp [Cursor.current, Cursor.peek, ahead, Token.isIdentifier]
      | cons token rest =>
        rw [ahead] at stops
        rwa [Cursor.current_eq ahead]
    rw [attributes, notWord]
    rfl
  | cons tree trees ih =>
    cases fuel with
    | zero => omega
    | succ fuel =>
      obtain ⟨place, firstTakes, restTakes⟩ := Cursor.Takes.split takes
      have isWord : cursor.current.isIdentifier = true := by
        rw [Cursor.Takes.head firstTakes]
        rfl
      have endsHere : endsPart place.ahead = true := by
        rw [restTakes.1]
        exact endsPart_attributes trees ends
      rw [attributes, if_pos isWord]
      refine bind_eq_ok.mpr ⟨_, attributePair_complete tree firstTakes endsHere, ?_⟩
      exact ih restTakes (by simpa using enough)

end

theorem putAll_entriesOf (trees : List AttributeTree) :
    (Table.putAll [] (entriesOf trees)).map Prod.snd = AttributeTree.denotedAll trees := by
  rw [Table.putAll_nil_eq_lastWrites]
  rfl

end

end Grammar

end TypedMarkup.Markup
