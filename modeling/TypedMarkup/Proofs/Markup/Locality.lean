import Mathlib.Data.List.Pairwise
import TypedMarkup.Proofs.Markup.Acceptance
import TypedMarkup.Proofs.Markup.Conformance
import TypedMarkup.Proofs.Markup.Correspondence
import TypedMarkup.Proofs.Markup.Pointing

/-!
Contract: a node depends on the text of its span and on nothing else.

Owns: `LaidOut`, which says how the parts of an element stand in it, and the theorem that a node at
any depth is read again from the text of its span, put in its place.

The attributes that are written stand in the order of the text. Of those with one key the last is
kept, at the place of the first, so the attributes of a tag are in the order of the text only if no
key is written twice.
-/

namespace TypedMarkup

/-! ## Spans of token sequences -/

namespace Span

def Before (first second : Span) : Prop := first.stop.offset ≤ second.start.offset

instance (first second : Span) : Decidable (first.Before second) :=
  inferInstanceAs (Decidable (_ ≤ _))

def Inside (inner outer : Span) : Prop :=
  outer.start.offset ≤ inner.start.offset ∧ inner.stop.offset ≤ outer.stop.offset

/-- No token stands outside of the span of its sequence. -/
theorem Covers.contains {whole : Span} {tokens : List Token} {text : List Char} {token : Token}
    (covers : whole.Covers tokens) (inOrder : InOrder text tokens) (member : token ∈ tokens) :
    token.span.Inside whole := by
  obtain ⟨⟨head, isHead, starts⟩, final, isFinal, stops⟩ := covers
  constructor
  · obtain ⟨rest, rfl⟩ := List.head?_eq_some_iff.mp isHead
    rw [starts]
    rcases List.mem_cons.mp member with rfl | later
    · exact Nat.le_refl _
    · have behind := (List.pairwise_cons.mp inOrder.ordered).1 token later
      exact (inOrder.points head List.mem_cons_self).forward.trans behind
  · obtain ⟨before, rfl⟩ := List.getLast?_eq_some_iff.mp isFinal
    rw [stops]
    rcases List.mem_append.mp member with earlier | here
    · have ahead := (List.pairwise_append.mp inOrder.ordered).2.2 token earlier final
        (List.mem_singleton_self final)
      exact ahead.trans (inOrder.points final (List.mem_append_right _ (by simp))).forward
    · cases List.mem_singleton.mp here
      exact Nat.le_refl _

/-- Parts with tokens of their own, in the order of the tokens, stand one behind the other and
inside of the whole. -/
theorem parts_inOrder {text : List Char} {whole : Span} {tokens : List Token}
    {parts : List (Span × List Token)} (covers : ∀ part ∈ parts, part.1.Covers part.2)
    (wholeCovers : whole.Covers tokens) (inOrder : InOrder text tokens)
    (sublist : (parts.flatMap Prod.snd).Sublist tokens) :
    (parts.map Prod.fst).Pairwise Span.Before ∧
      ∀ span ∈ parts.map Prod.fst, span.Inside whole := by
  constructor
  · rw [List.pairwise_map]
    have apart := (List.pairwise_flatMap.mp (inOrder.ordered.sublist sublist)).2
    refine apart.imp_of_mem fun {part later} member laterMember between => ?_
    obtain ⟨-, final, isFinal, stops⟩ := covers part member
    obtain ⟨⟨head, isHead, starts⟩, -⟩ := covers later laterMember
    rw [Span.Before, stops, starts]
    exact between final (List.mem_of_getLast? isFinal) head (List.mem_of_head? isHead)
  · refine List.forall_mem_map.mpr fun part member => ?_
    have own (token : Token) (inPart : token ∈ part.2) : token.span.Inside whole :=
      wholeCovers.contains inOrder
        (sublist.subset (List.mem_flatMap.mpr ⟨part, member, inPart⟩))
    obtain ⟨⟨head, isHead, starts⟩, final, isFinal, stops⟩ := covers part member
    rw [Span.Inside, starts, stops]
    exact ⟨(own head (List.mem_of_head? isHead)).1, (own final (List.mem_of_getLast? isFinal)).2⟩

end Span

namespace Markup

/-! ## How the parts of an element stand -/

/-- The spans of the name, the written attributes and the children of an element, in this order. -/
def partSpans (tag : Tag) (children : List Node) (written : List AttributeTree) : List Span :=
  tag.nameSpan :: (written.map (fun tree => tree.denoted.span) ++ children.map Node.span)

/-- The parts of an element stand in it one behind the other. Of the written attributes, the last
with each key is kept, where the key was first written. -/
structure LaidOut (tag : Tag) (children : List Node) (span : Span)
    (written : List AttributeTree) : Prop where
  inside : ∀ part ∈ partSpans tag children written, part.Inside span
  ordered : (partSpans tag children written).Pairwise Span.Before
  attributes : ∀ found ∈ tag.attributes, found.span.Inside span
  kept : ∀ found, found ∈ tag.attributes ↔
    ∃ tree, AttributeTree.IsLast keyOf written tree ∧ tree.denoted = found
  keys : tag.attributes.map (fun found => keyOf found.name) =
    distinct (written.map fun tree => keyOf tree.name.text)
  apart : tag.attributes.Pairwise fun first second =>
    first.span.Before second.span ∨ second.span.Before first.span
  once : (written.map fun tree => keyOf tree.name.text).Nodup →
    tag.attributes = written.map AttributeTree.denoted

namespace AttributeTree

variable {trees : List AttributeTree}

/-- Written attributes that stand one behind the other are kept apart. -/
theorem denotedAll_apart
    (ordered : (trees.map fun tree => tree.denoted.span).Pairwise Span.Before) :
    (denotedAll trees).Pairwise fun first second =>
      first.span.Before second.span ∨ second.span.Before first.span := by
  have either : (trees.map denoted).Pairwise fun first second =>
      first.span.Before second.span ∨ second.span.Before first.span := by
    rw [List.pairwise_map] at ordered ⊢
    exact ordered.imp .inl
  have keys := nodup_keys_denotedAll trees
  rw [List.Nodup, List.pairwise_map] at keys
  have written {found : Attribute} (member : found ∈ denotedAll trees) :
      found ∈ trees.map denoted := by
    obtain ⟨tree, last, rfl⟩ := mem_denotedAll.mp member
    exact List.mem_map_of_mem last.mem
  refine keys.imp_of_mem fun {first second} firstMember secondMember differ => ?_
  have symmetric : Std.Symm fun first second : Attribute =>
      first.span.Before second.span ∨ second.span.Before first.span := ⟨fun _ _ => Or.symm⟩
  refine either.forall (written firstMember) (written secondMember) ?_
  rintro rfl
  exact differ rfl

theorem denotedAll_of_nodup (nodup : (trees.map fun tree => keyOf tree.name.text).Nodup) :
    denotedAll trees = trees.map denoted := by
  have keys : (Table.names ([] : Table Attribute) ++
      (trees.map fun tree => (keyOf tree.name.text, tree.denoted)).map Prod.fst).Nodup := by
    rw [List.map_map]
    exact nodup
  rw [denotedAll, ← Table.putAll_nil_eq_lastWrites, Table.putAll_of_nodup keys, List.nil_append,
    List.map_map]
  rfl

end AttributeTree

namespace NodeTree

variable {tree : NodeTree} {tag : Tag} {children : List Node} {span : Span}

/-- The name, the attributes and the children of an element have tokens of their own, in this
order. -/
theorem exists_parts (denotes : tree.denoted = .element tag children span) :
    ∃ (name : NameTree) (written : List AttributeTree) (below : List NodeTree),
      tree.inside? = some (written, below) ∧ tag.nameSpan = name.span ∧
      tag.attributes = AttributeTree.denotedAll written ∧ children = below.map denoted ∧
      (name.tokens ++ (written.flatMap AttributeTree.tokens ++ below.flatMap tokens)).Sublist
        tree.tokens := by
  cases tree with
  | single opened name written slash stop =>
    cases denotes
    refine ⟨name, written, [], rfl, rfl, rfl, rfl, ?_⟩
    rw [tokens, List.flatMap_nil]
    exact ((List.nil_sublist _).append_left _ |>.append_left _).cons _
  | paired opened name written greater below less slash closing agree stop =>
    cases denotes
    refine ⟨name, written, below, rfl, rfl, rfl, denotedAll_eq_map below, ?_⟩
    rw [tokens, tokensAll_eq_flatMap]
    exact ((((List.sublist_append_left _ _).cons _).append_left _).append_left _).cons _
  | text | block => cases denotes

def partsOf (name : NameTree) (written : List AttributeTree) (below : List NodeTree) :
    List (Span × List Token) :=
  (name.span, name.tokens) ::
    (written.map (fun tree => (tree.denoted.span, tree.tokens)) ++
      below.map fun tree => (tree.denoted.span, tree.tokens))

section

variable {name : NameTree} {written : List AttributeTree} {below : List NodeTree}

theorem partsOf_spans (nameSpan : tag.nameSpan = name.span) :
    (partsOf name written below).map Prod.fst = partSpans tag (below.map denoted) written := by
  rw [partsOf, partSpans, nameSpan, List.map_cons, List.map_append, List.map_map, List.map_map,
    List.map_map]
  rfl

theorem partsOf_tokens :
    (partsOf name written below).flatMap Prod.snd =
      name.tokens ++ (written.flatMap AttributeTree.tokens ++ below.flatMap tokens) := by
  rw [partsOf, List.flatMap_cons, List.flatMap_append, List.flatMap_map, List.flatMap_map]

theorem partsOf_covers (name : NameTree) (written : List AttributeTree) (below : List NodeTree) :
    ∀ part ∈ partsOf name written below, part.1.Covers part.2 := by
  refine List.forall_mem_cons.mpr ⟨name.covers, List.forall_mem_append.mpr ⟨?_, ?_⟩⟩
  · exact List.forall_mem_map.mpr fun tree _ => tree.covers
  · exact List.forall_mem_map.mpr fun tree _ => tree.covers

end

theorem exists_laidOut {text : List Char} (denotes : tree.denoted = .element tag children span)
    (inOrder : InOrder text tree.tokens) :
    ∃ written below, tree.inside? = some (written, below) ∧ LaidOut tag children span written := by
  obtain ⟨name, written, below, isInside, nameSpan, own, rfl, sublist⟩ := exists_parts denotes
  have covers := tree.covers
  rw [denotes] at covers
  rw [← partsOf_tokens] at sublist
  obtain ⟨ordered, inside⟩ :=
    Span.parts_inOrder (partsOf_covers name written below) covers inOrder sublist
  rw [partsOf_spans nameSpan] at ordered inside
  have writtenOrdered := (List.pairwise_append.mp (List.pairwise_cons.mp ordered).2).1
  refine ⟨written, below, isInside, inside, ordered, ?_, ?_, ?_, ?_, ?_⟩
  · intro found member
    rw [own, AttributeTree.mem_denotedAll] at member
    obtain ⟨tree, last, rfl⟩ := member
    refine inside _ (List.mem_cons_of_mem _ (List.mem_append_left _ ?_))
    exact List.mem_map.mpr ⟨tree, last.mem, rfl⟩
  · intro found
    rw [own, AttributeTree.mem_denotedAll]
  · rw [own, AttributeTree.keys_denotedAll]
  · rw [own]
    exact AttributeTree.denotedAll_apart writtenOrdered
  · intro nodup
    rw [own, AttributeTree.denotedAll_of_nodup nodup]

/-- The tokens of a child are some of those of its element, next to each other. -/
theorem tokens_of_mem {written : List AttributeTree} {below : List NodeTree} {child : NodeTree}
    (isInside : tree.inside? = some (written, below)) (member : child ∈ below) :
    child.tokens <:+: tree.tokens := by
  obtain ⟨before, after, rfl⟩ := List.append_of_mem member
  cases tree with
  | single | text | block => simp [inside?] at isInside
  | paired opened name attributes greater children less slash closing agree stop =>
    cases isInside
    refine ⟨.mark '<' opened :: (name.tokens ++ (written.flatMap AttributeTree.tokens ++
      .mark '>' greater :: before.flatMap tokens)), after.flatMap tokens ++
        .mark '<' less :: .mark '/' slash :: (closing.tokens ++ [.mark '>' stop]), ?_⟩
    simp [tokens, tokensAll_eq_flatMap]

end NodeTree

/-! ## A node read by itself -/

/-- A node inside of another one has a tree inside of its tree. -/
theorem Node.Within.exists_tree {node root : Node} (within : node.Within root) (tree : NodeTree)
    (denotes : tree.denoted = root) :
    ∃ part : NodeTree, part.denoted = node ∧ part.tokens <:+: tree.tokens := by
  induction within generalizing tree with
  | self => exact ⟨tree, denotes, List.infix_rfl⟩
  | deeper member inside ih =>
    obtain ⟨-, written, below, isInside, -, -, rfl, -⟩ := NodeTree.exists_parts denotes
    obtain ⟨child, childMember, childDenotes⟩ := List.mem_map.mp member
    obtain ⟨part, partDenotes, partTokens⟩ := ih child childDenotes
    exact ⟨part, partDenotes, partTokens.trans (NodeTree.tokens_of_mem isInside childMember)⟩

/-- Tokens of a node are read as this node again from the text that they cover. -/
theorem exists_parse_alone {source : String} {tokens : Tokens} {left right : List Token}
    (tree : NodeTree) (read : tokenize source = .ok tokens)
    (split : tokens.body = left ++ (tree.tokens ++ right)) :
    ∃ alone, parse (tree.denoted.span.textIn source) = .ok alone ∧
      alone.relocate tree.denoted.span.start.shift =
        ⟨tree.denoted, none, tree.denoted.span⟩ := by
  obtain ⟨own, ownRead, moved, stops⟩ := tokenize_covered read split tree.covers
  have run := Token.runAlike_relocate (Position.shifts_shift tree.denoted.span.start) own.body
  rw [moved] at run
  have alike : Cursor.Alike tree.denoted.span.start.shift id
      (.ofTokens (tree.denoted.span.textIn source) own)
      (.ofTokens source ⟨tree.tokens, tree.denoted.span.stop⟩) :=
    ⟨.nil, run, stops⟩
  have again : Grammar.unit (.ofTokens source ⟨tree.tokens, tree.denoted.span.stop⟩) =
      .ok ⟨tree.denoted, none, tree.denoted.span⟩ :=
    Grammar.unit_complete ⟨tree, none, tree.denoted.span.stop⟩ rfl
  have corresponds := Grammar.unit_alike alike
  rw [again] at corresponds
  obtain ⟨alone, aloneRead, same⟩ := corresponds.exists_left
  refine ⟨alone, ?_, same.trans (Source.relocate_id _)⟩
  rw [parse, tokensOf, ownRead]
  exact aloneRead

/-- Every node of a unit, at any depth, is local to its span. The span points into the text and
covers the tokens of the node. The parts of an element stand in it one behind the other: its name,
its attributes as written, its children. The text of the span, read by itself, is the same node up
to a shift of places, and nothing else. -/
theorem node_is_local_to_its_span {source : String} {unit : Source} {node : Node}
    (read : parse source = .ok unit) (within : node.Within unit.root) :
    node.span.PointsInto source.toList ∧
    (∃ (tokens : Tokens) (tree : NodeTree), tokenize source = .ok tokens ∧
      tree.tokens <:+: tokens.body ∧ node.span.Covers tree.tokens ∧ tree.denoted = node ∧
      ∀ tag children span, node = .element tag children span →
        ∃ written below, tree.inside? = some (written, below) ∧
          LaidOut tag children span written) ∧
    ∃ alone, parse (node.span.textIn source) = .ok alone ∧
      alone.relocate node.span.start.shift = ⟨node, none, node.span⟩ := by
  obtain ⟨tokens, tokensRead, unitRead⟩ := bind_eq_ok.mp read
  have tokenized : tokenize source = .ok tokens := mapError_eq_ok.mp tokensRead
  obtain ⟨unitTree, derives, rfl⟩ := Grammar.unit_sound unitRead
  obtain ⟨tree, rfl, inRoot⟩ := within.exists_tree unitTree.root rfl
  have inBody : tree.tokens <:+: tokens.body := by
    rw [UnitTree.tokens, Tokens.toList, ← List.append_assoc] at derives
    obtain ⟨body, -⟩ := List.append_inj' derives rfl
    rw [← body]
    exact inRoot.trans (List.prefix_append _ _).isInfix
  have inOrder : InOrder source.toList tree.tokens :=
    (tokenize_inOrder tokenized).sublist
      (inBody.sublist.trans (List.sublist_append_left _ _))
  obtain ⟨left, right, split⟩ := inBody
  refine ⟨tree.covers.pointsInto inOrder, ?_, ?_⟩
  · refine ⟨tokens, tree, tokenized, ⟨left, right, split⟩, tree.covers, rfl, ?_⟩
    intro tag children span isElement
    exact NodeTree.exists_laidOut isElement inOrder
  · exact exists_parse_alone tree tokenized (by rw [← split, List.append_assoc])

def Node.parts : Node → List Attribute × List Node
  | .element tag children _ => (tag.attributes, children)
  | _ => ([], [])

theorem Node.within_of_mem_parts {child root : Node} (member : child ∈ root.parts.2) :
    child.Within root := by
  cases root with
  | element => exact .deeper member (.self child)
  | _ => cases member

def nestedTag : String := "<p><b a=1/></p>"

theorem nestedTag_is_local :
    ∃ unit node, parse nestedTag = .ok unit ∧ node.Within unit.root ∧
      node.span.textIn nestedTag = "<b a=1/>" ∧
      ∃ alone, parse "<b a=1/>" = .ok alone ∧
        alone.relocate node.span.start.shift = ⟨node, none, node.span⟩ := by
  have reads : yields (fun unit => unit.root.parts.2.map (fun child => child.span.textIn nestedTag)
      == ["<b a=1/>"]) (parse nestedTag) = true := by
    decide +kernel
  obtain ⟨unit, read, found⟩ := exists_of_yields reads
  obtain ⟨node, isNode, text⟩ := List.map_eq_singleton_iff.mp (beq_iff_eq.mp found)
  have within : node.Within unit.root :=
      Node.within_of_mem_parts (isNode ▸ List.mem_singleton_self node)
  obtain ⟨-, -, alone⟩ := node_is_local_to_its_span read within
  rw [text] at alone
  exact ⟨unit, node, read, within, text, alone⟩

def repeatedAttribute : String := "<p a=1 b=2 a=3/>"

/-- An attribute that is written again stands where it was first written, before attributes that are
written earlier than what is kept of it. -/
theorem repeatedAttribute_is_out_of_order :
    ∃ unit, parse repeatedAttribute = .ok unit ∧
      ¬ unit.root.parts.1.Pairwise fun first second => first.span.Before second.span := by
  have reads : yields (fun unit => !decide (unit.root.parts.1.Pairwise fun first second =>
      first.span.Before second.span)) (parse repeatedAttribute) = true := by
    decide +kernel
  obtain ⟨unit, read, outOfOrder⟩ := exists_of_yields reads
  rw [Bool.not_eq_true', decide_eq_false_iff_not] at outOfOrder
  exact ⟨unit, read, outOfOrder⟩

end Markup

end TypedMarkup
