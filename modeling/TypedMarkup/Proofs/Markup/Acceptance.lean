import TypedMarkup.Proofs.Markup.Parts

/-!
Contract: reading a unit finds the derivation of its tokens.

Owns: that nodes, children and units are read exactly from the tokens of their trees, and the
theorem on whole units.

A node that is read has a tree by induction on the fuel, since each call has less than its caller.
A tree is read by induction on the tree, with two steps of fuel for each token.

Does not own: the errors of token sequences that have no derivation.
-/

namespace TypedMarkup.Markup

namespace Grammar

/-! ## Nodes that are read have trees -/

/-- Whatever node is read with some fuel is denoted by a tree of the tokens that were read. -/
def NodesSound (fuel : Nat) : Prop :=
  ∀ (cursor behind : Cursor) (found : Node), node fuel cursor = .ok (found, behind) →
    ∃ tree : NodeTree, cursor.Takes tree.tokens behind ∧ found = tree.denoted

/-- The same for children, which are read up to a closing tag. -/
def ChildrenSound (fuel : Nat) : Prop :=
  ∀ (name : String) (nameSpan : Span) (cursor behind : Cursor) (found : List Node),
    children name nameSpan fuel cursor = .ok (found, behind) →
      ∃ (trees : List NodeTree) (less slash : Span),
        cursor.Takes (NodeTree.tokensAll trees) behind ∧
        behind.Takes [.mark '<' less, .mark '/' slash] behind.forward.forward ∧
        found = NodeTree.denotedAll trees

theorem nodesSound_succ {fuel : Nat} (childrenSound : ChildrenSound fuel) :
    NodesSound (fuel + 1) := by
  intro cursor behind found read
  rw [node] at read
  split at read
  · next opened current =>
    obtain ⟨⟨text, span, behindName⟩, nameRead, behindNameRead⟩ := bind_eq_ok.mp read
    obtain ⟨⟨own, behindTag⟩, attributesRead, behindTagRead⟩ := bind_eq_ok.mp behindNameRead
    obtain ⟨name, nameTakes, rfl, rfl⟩ := name_sound nameRead
    obtain ⟨trees, attributesTake, same⟩ := attributes_sound attributesRead
    obtain rfl := same.trans (putAll_entriesOf trees)
    have openedTakes := Cursor.takes_forward current (by simp)
    dsimp only at behindTagRead
    split at behindTagRead
    · next atSlash =>
      obtain ⟨slash, slashTakes⟩ := Cursor.takes_of_atMark atSlash
      obtain ⟨⟨mark, place⟩, closeRead, same⟩ := bind_eq_ok.mp behindTagRead
      obtain ⟨stop, rfl, closeTakes⟩ := Cursor.expectMark_eq_ok.mp closeRead
      cases pure_eq_ok.mp same
      exact ⟨.single opened name trees slash stop, openedTakes.trans (nameTakes.trans
        (attributesTake.trans (slashTakes.trans closeTakes))), rfl⟩
    · split at behindTagRead
      · next atGreater =>
        obtain ⟨greater, greaterTakes⟩ := Cursor.takes_of_atMark atGreater
        obtain ⟨⟨inside, behindInside⟩, insideRead, behindInsideRead⟩ :=
          bind_eq_ok.mp behindTagRead
        obtain ⟨below, less, slash, insideTakes, slashTakes, rfl⟩ :=
          childrenSound _ _ _ _ _ insideRead
        obtain ⟨⟨closedText, closedSpan, behindClosed⟩, closedRead, behindClosedRead⟩ :=
          bind_eq_ok.mp behindInsideRead
        obtain ⟨closing, closingTakes, rfl, rfl⟩ := name_sound closedRead
        dsimp only at behindClosedRead
        split at behindClosedRead
        · next agree =>
          obtain ⟨⟨mark, place⟩, closeRead, same⟩ := bind_eq_ok.mp behindClosedRead
          obtain ⟨stop, rfl, closeTakes⟩ := Cursor.expectMark_eq_ok.mp closeRead
          cases pure_eq_ok.mp same
          exact ⟨.paired opened name trees greater below less slash closing agree stop,
            openedTakes.trans (nameTakes.trans (attributesTake.trans (greaterTakes.trans
              (insideTakes.trans (slashTakes.trans (closingTakes.trans closeTakes)))))), rfl⟩
        · exact absurd behindClosedRead throw_ne_ok
      · exact absurd behindTagRead throw_ne_ok
  · next value raw span current =>
    cases read
    exact ⟨.text value raw span, Cursor.takes_forward current (by simp), rfl⟩
  · next raw inner span current =>
    cases read
    exact ⟨.block raw inner span, Cursor.takes_forward current (by simp), rfl⟩
  · cases read
  · cases read

theorem childrenSound_succ {fuel : Nat} (nodesSound : NodesSound fuel)
    (childrenSound : ChildrenSound fuel) : ChildrenSound (fuel + 1) := by
  intro name nameSpan cursor behind found read
  rw [children] at read
  split at read
  · next atClosing =>
    obtain ⟨less, slash, takes⟩ := Cursor.atMarks_iff.mp atClosing
    cases read
    exact ⟨[], less, slash, Cursor.takes_nil _, takes, rfl⟩
  · split at read
    · cases read
    · obtain ⟨⟨first, behindFirst⟩, firstRead, behindFirstRead⟩ := bind_eq_ok.mp read
      obtain ⟨⟨others, place⟩, othersRead, same⟩ := bind_eq_ok.mp behindFirstRead
      cases pure_eq_ok.mp same
      obtain ⟨tree, firstTakes, rfl⟩ := nodesSound _ _ _ firstRead
      obtain ⟨trees, less, slash, othersTake, slashTakes, rfl⟩ := childrenSound _ _ _ _ _ othersRead
      exact ⟨tree :: trees, less, slash, firstTakes.trans othersTake, slashTakes, rfl⟩

theorem nodes_and_children_sound (fuel : Nat) : NodesSound fuel ∧ ChildrenSound fuel := by
  induction fuel with
  | zero =>
    refine ⟨?_, ?_⟩
    · intro cursor behind found read
      cases read
    · intro name nameSpan cursor behind found read
      cases read
  | succ fuel ih =>
    exact ⟨nodesSound_succ ih.2,
      childrenSound_succ ih.1 ih.2⟩

/-! ## Trees are read -/

/-- With two steps for each token of a tree, the tree is read. -/
def Complete (tree : NodeTree) : Prop :=
  ∀ (fuel : Nat) (cursor behind : Cursor), 2 * tree.tokens.length ≤ fuel →
    cursor.Takes tree.tokens behind → node fuel cursor = .ok (tree.denoted, behind)

theorem NodeTree.tokens_ne_nil (tree : NodeTree) : 0 < tree.tokens.length := by
  cases tree <;> simp [NodeTree.tokens]

theorem notClosing_of_takes {cursor behind : Cursor} {tree : NodeTree}
    (takes : cursor.Takes tree.tokens behind) :
    (cursor.atMark '<' 0 && cursor.atMark '/' 1) = false := by
  rw [Bool.eq_false_iff]
  intro atClosing
  obtain ⟨less, slash, closing⟩ := Cursor.atMarks_iff.mp atClosing
  have begins := tree.begins behind.ahead
  rw [← takes.1, closing.1] at begins
  cases begins

/-- Children are read one by one, up to the closing tag behind them. -/
theorem children_complete {trees : List NodeTree} (each : ∀ tree ∈ trees, Complete tree)
    {name : String} {nameSpan : Span} {fuel : Nat} {cursor behind : Cursor}
    (enough : 2 * (NodeTree.tokensAll trees).length < fuel)
    (takes : cursor.Takes (NodeTree.tokensAll trees) behind)
    (closing : (behind.atMark '<' 0 && behind.atMark '/' 1) = true) :
    children name nameSpan fuel cursor = .ok (NodeTree.denotedAll trees, behind) := by
  induction trees generalizing fuel cursor with
  | nil =>
    cases fuel with
    | zero => omega
    | succ fuel =>
      cases takes.eq_of_nil
      rw [children, if_pos closing]
      rfl
  | cons tree trees ih =>
    obtain ⟨here, further⟩ := List.forall_mem_cons.mp each
    obtain ⟨place, firstTakes, restTakes⟩ := Cursor.Takes.split takes
    have notEmpty := NodeTree.tokens_ne_nil tree
    have counted : (NodeTree.tokensAll (tree :: trees)).length =
        tree.tokens.length + (NodeTree.tokensAll trees).length := by
      rw [NodeTree.tokensAll, List.length_append]
    cases fuel with
    | zero => omega
    | succ fuel =>
      have notEnd : cursor.atEnd = false := by
        rw [Cursor.atEnd, firstTakes.1]
        cases tokens : tree.tokens with
        | nil => simp [tokens] at notEmpty
        | cons => rfl
      rw [children, notClosing_of_takes firstTakes, notEnd, if_neg Bool.false_ne_true,
        if_neg Bool.false_ne_true]
      exact bind_eq_ok.mpr ⟨_, here fuel cursor _ (by omega) firstTakes,
        bind_eq_ok.mpr ⟨_, ih further (by omega) restTakes, rfl⟩⟩

theorem length_le_tokens (trees : List AttributeTree) :
    trees.length ≤ (trees.flatMap AttributeTree.tokens).length := by
  induction trees with
  | nil => exact Nat.le_refl 0
  | cons tree trees ih =>
    have notEmpty : 0 < tree.tokens.length := by simp [AttributeTree.tokens, NameTree.tokens]
    rw [List.flatMap_cons, List.length_append, List.length_cons]
    omega

theorem startTag_complete {cursor behindName behind : Cursor} {tree : NameTree}
    {trees : List AttributeTree} (nameTakes : cursor.Takes tree.tokens behindName)
    (attributesTake : behindName.Takes (trees.flatMap AttributeTree.tokens) behind)
    (stops : beginsAttribute behind.ahead = false) (ends : endsPart behind.ahead = true) :
    name cursor = .ok (tree.text, tree.span, behindName) ∧
      attributes [] behindName.ahead.length.succ behindName =
        .ok (AttributeTree.denotedAll trees, behind) := by
  have enough : trees.length < behindName.ahead.length.succ := by
    have counted := length_le_tokens trees
    rw [attributesTake.1, List.length_append]
    omega
  refine ⟨name_complete tree nameTakes ?_, ?_⟩
  · rw [attributesTake.1]
    exact (endsPart_cases (endsPart_attributes trees ends)).1
  · rw [attributes_complete trees attributesTake stops ends enough, putAll_entriesOf]

theorem complete_single (opened : Span) (tree : NameTree) (trees : List AttributeTree)
    (slash stop : Span) : Complete (.single opened tree trees slash stop) := by
  intro fuel cursor behind enough takes
  cases fuel with
  | zero => simp [NodeTree.tokens] at enough
  | succ fuel =>
    obtain ⟨behindName, nameTakes, further⟩ := (Cursor.Takes.tail takes).split
    obtain ⟨behindTag, attributesTake, slashTakes⟩ := further.split
    obtain ⟨nameRead, attributesRead⟩ := startTag_complete nameTakes attributesTake
      (by rw [slashTakes.1]; rfl) (by rw [slashTakes.1]; rfl)
    rw [node, Cursor.Takes.head takes]
    refine bind_eq_ok.mpr ⟨_, nameRead, bind_eq_ok.mpr ⟨_, attributesRead, ?_⟩⟩
    dsimp only
    rw [if_pos slashTakes.atOwnMark]
    exact bind_eq_ok.mpr ⟨_, Cursor.expectMark_eq_ok.mpr ⟨_, rfl, slashTakes.tail⟩, rfl⟩

theorem complete_paired (opened : Span) (tree : NameTree) (trees : List AttributeTree)
    (greater : Span) {below : List NodeTree} (each : ∀ child ∈ below, Complete child)
    (less slash : Span) (closing : NameTree) (agree : closing.text.toLower = tree.text.toLower)
    (stop : Span) :
    Complete (.paired opened tree trees greater below less slash closing agree stop) := by
  intro fuel cursor behind enough takes
  cases fuel with
  | zero => simp [NodeTree.tokens] at enough
  | succ fuel =>
    have enoughBelow : 2 * (NodeTree.tokensAll below).length < fuel := by
      simp only [NodeTree.tokens, List.length_cons, List.length_append] at enough
      omega
    obtain ⟨behindName, nameTakes, further⟩ := (Cursor.Takes.tail takes).split
    obtain ⟨behindTag, attributesTake, greaterTakes⟩ := further.split
    obtain ⟨behindBelow, belowTakes, lessTakes⟩ := greaterTakes.tail.split
    obtain ⟨behindClosed, closingTakes, stopTakes⟩ := lessTakes.tail.tail.split
    obtain ⟨nameRead, attributesRead⟩ := startTag_complete nameTakes attributesTake
      (by rw [greaterTakes.1]; rfl) (by rw [greaterTakes.1]; rfl)
    have atClosing := Cursor.atMarks_iff.mpr ⟨_, _, lessTakes.first.trans lessTakes.tail.first⟩
    rw [node, Cursor.Takes.head takes]
    refine bind_eq_ok.mpr ⟨_, nameRead, bind_eq_ok.mpr ⟨_, attributesRead, ?_⟩⟩
    dsimp only
    rw [greaterTakes.atMark, if_neg (by simp [Token.isMark]), if_pos greaterTakes.atOwnMark]
    refine bind_eq_ok.mpr ⟨_, children_complete each enoughBelow belowTakes atClosing,
      bind_eq_ok.mpr ⟨_, name_complete closing closingTakes (by rw [stopTakes.1]; rfl), ?_⟩⟩
    dsimp only
    rw [if_pos agree]
    exact bind_eq_ok.mpr ⟨_, Cursor.expectMark_eq_ok.mpr ⟨_, rfl, stopTakes⟩, rfl⟩

mutual

theorem node_complete (tree : NodeTree) : Complete tree := by
  cases tree with
  | single opened name attributes slash stop =>
    exact complete_single opened name attributes slash stop
  | paired opened name attributes greater children less slash closing agree stop =>
    exact complete_paired opened name attributes greater (nodes_complete children) less slash
      closing agree stop
  | text | block =>
    intro fuel cursor behind enough takes
    cases fuel with
    | zero => simp [NodeTree.tokens] at enough
    | succ fuel =>
      rw [node, Cursor.Takes.head takes, Cursor.Takes.forward takes]
      rfl

theorem nodes_complete (trees : List NodeTree) : ∀ tree ∈ trees, Complete tree := by
  cases trees with
  | nil => exact List.forall_mem_nil _
  | cons tree rest => exact List.forall_mem_cons.mpr ⟨node_complete tree, nodes_complete rest⟩

end

/-! ## Units -/

/-- A node ends where its last token does. -/
theorem exists_last_token (tree : NodeTree) :
    ∃ before token, tree.tokens = before ++ [token] ∧
      token.span.stop = tree.denoted.span.stop := by
  cases tree with
  | single opened name attributes slash stop =>
    refine ⟨.mark '<' opened :: (name.tokens ++ (attributes.flatMap AttributeTree.tokens ++
      [.mark '/' slash])), .mark '>' stop, ?_, rfl⟩
    simp [NodeTree.tokens]
  | paired opened name attributes greater children less slash closing agree stop =>
    refine ⟨.mark '<' opened :: (name.tokens ++ (attributes.flatMap AttributeTree.tokens ++
      .mark '>' greater :: (NodeTree.tokensAll children ++ .mark '<' less :: .mark '/' slash ::
        closing.tokens))), .mark '>' stop, ?_, rfl⟩
    simp [NodeTree.tokens]
  | text value raw span => exact ⟨[], .quoted value raw span, rfl, rfl⟩
  | block raw inner span => exact ⟨[], .group .brace raw inner span, rfl, rfl⟩

theorem join_previous_span {cursor behind : Cursor} {tree : NodeTree}
    (takes : cursor.Takes tree.tokens behind) :
    tree.denoted.span.join behind.previous.span = tree.denoted.span.join tree.denoted.span := by
  obtain ⟨before, token, ends, sameStop⟩ := exists_last_token tree
  rw [ends] at takes
  rw [takes.previous, Span.join, Span.join, sameStop]

theorem unit_sound {source : String} {tokens : Tokens} {found : Source}
    (read : unit (.ofTokens source tokens) = .ok found) :
    ∃ tree : UnitTree, tree.tokens = tokens.toList ∧ tree.denoted = found := by
  obtain ⟨⟨root, behindRoot⟩, rootRead, behindRootRead⟩ := bind_eq_ok.mp read
  obtain ⟨tree, rootTakes, rfl⟩ := (nodes_and_children_sound _).1 _ _ _ rootRead
  dsimp only at behindRootRead
  split at behindRootRead
  · next atColon =>
    obtain ⟨colon, colonTakes⟩ := Cursor.takes_of_atMark atColon
    obtain ⟨⟨name, span, place⟩, nameRead, behindNameRead⟩ := bind_eq_ok.mp behindRootRead
    have nameTakes := Cursor.expectIdentifier_eq_ok.mp nameRead
    have takes := rootTakes.trans (colonTakes.trans nameTakes)
    obtain ⟨output, sameOutput, finished⟩ := bind_eq_ok.mp behindNameRead
    cases pure_eq_ok.mp sameOutput
    dsimp only at finished
    split at finished
    · next atEnd =>
      cases pure_eq_ok.mp finished
      refine ⟨⟨tree, some (colon, ⟨name, span⟩), tokens.stop⟩, ?_, ?_⟩
      · have body : tokens.body = _ := takes.1
        rw [Tokens.toList, body, List.isEmpty_iff.mp atEnd, List.append_nil, List.append_assoc]
        rfl
      · rw [Cursor.Takes.previous (colonTakes.trans nameTakes)]
        rfl
    · exact absurd finished throw_ne_ok
  · obtain ⟨output, sameOutput, finished⟩ := bind_eq_ok.mp behindRootRead
    cases pure_eq_ok.mp sameOutput
    dsimp only at finished
    split at finished
    · next atEnd =>
      cases pure_eq_ok.mp finished
      refine ⟨⟨tree, none, tokens.stop⟩, ?_, ?_⟩
      · have body : tokens.body = _ := rootTakes.1
        rw [Tokens.toList, body, List.isEmpty_iff.mp atEnd, List.append_nil]
        rfl
      · rw [join_previous_span rootTakes]
        rfl
    · exact absurd finished throw_ne_ok

theorem unit_complete {source : String} {tokens : Tokens} (tree : UnitTree)
    (derives : tree.tokens = tokens.toList) :
    unit (.ofTokens source tokens) = .ok tree.denoted := by
  obtain ⟨root, output, stop⟩ := tree
  rw [UnitTree.tokens, Tokens.toList, ← List.append_assoc] at derives
  obtain ⟨body, -⟩ := List.append_inj' derives rfl
  dsimp only at body
  have whole : (Cursor.ofTokens source tokens).Takes tokens.body
      (Cursor.past (.ofTokens source tokens) tokens.body []) := ⟨(List.append_nil _).symm, rfl⟩
  rw [← body] at whole
  obtain ⟨behind, rootTakes, outputTakes⟩ := whole.split
  have rootRead := node_complete root (2 * (Cursor.ofTokens source tokens).ahead.length + 2) _ _
    (by rw [rootTakes.1, List.length_append]; omega) rootTakes
  refine bind_eq_ok.mpr ⟨_, rootRead, ?_⟩
  dsimp only
  cases output with
  | none =>
    cases Cursor.Takes.eq_of_nil outputTakes
    rw [if_neg (by simp [Cursor.atMark, Cursor.peek, Token.isMark])]
    refine bind_eq_ok.mpr ⟨_, rfl, ?_⟩
    dsimp only
    rw [join_previous_span rootTakes]
    rfl
  | some found =>
    have colonTakes : behind.Takes [.mark ':' found.1, found.2.token] _ := outputTakes
    rw [if_pos colonTakes.atOwnMark]
    refine bind_eq_ok.mpr ⟨_, Cursor.expectIdentifier_eq_ok.mpr colonTakes.tail,
      bind_eq_ok.mpr ⟨_, rfl, ?_⟩⟩
    dsimp only
    rw [Cursor.Takes.previous (colonTakes.first.trans colonTakes.tail)]
    rfl

end Grammar

/-- Reading accepts exactly the grammar: tokens are read as a unit if and only if a tree derives
them, and the unit is the one that the tree denotes. There is one such tree at most. -/
theorem unit_is_read_iff_derived (source : String) (tokens : Tokens) :
    (∀ unit, Grammar.unit (.ofTokens source tokens) = .ok unit ↔
      ∃ tree : UnitTree, tree.tokens = tokens.toList ∧ tree.denoted = unit) ∧
    ∀ tree other : UnitTree, tree.tokens = tokens.toList → other.tokens = tokens.toList →
      tree = other := by
  refine ⟨?_, ?_⟩
  · intro unit
    constructor
    · exact Grammar.unit_sound
    · rintro ⟨tree, derives, rfl⟩
      exact Grammar.unit_complete tree derives
  · intro tree other derives otherDerives
    exact UnitTree.eq_of_tokens_eq (derives.trans otherDerives.symm)

end TypedMarkup.Markup
