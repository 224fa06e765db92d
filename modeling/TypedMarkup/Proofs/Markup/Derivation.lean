import TypedMarkup.Markup.Capture
import TypedMarkup.Proofs.Table

/-!
Contract: the grammar of markup units, as derivation trees.

Owns: a type of trees for each rule of the grammar, the tokens that a tree derives, the part of a
unit that it denotes, and the theorem that tokens have at most one tree. Also which attributes of a
tag are kept: the last one with each key.

  unit       ::= node [":" word] end
  node       ::= element | quoted text | brace group
  element    ::= "<" name attribute* ("/" ">" | ">" node* "<" "/" name ">")
  name       ::= word ("-" word)*
  attribute  ::= name "=" (number | quoted text | expression)
  expression ::= group | word (("." | "::") word)* [paren group]

The parts of a name follow each other directly, and so do two colons. The two names of an element
agree up to case. The trees keep these side conditions, so every tree is a derivation.

Does not own: how trees are found.
-/

namespace TypedMarkup.Markup

/-! ## Names -/

structure Word where
  name : String
  span : Span

def Word.token (word : Word) : Token := .identifier word.name word.span

structure NamePart where
  dash : Span
  word : Word

def NamePart.tokens (part : NamePart) : List Token := [.mark '-' part.dash, part.word.token]

/-- Parts that directly follow a span and each other. -/
def Chained : Span → List NamePart → Prop
  | _, [] => True
  | before, part :: rest =>
    before.stop.offset = part.dash.start.offset ∧
      part.dash.stop.offset = part.word.span.start.offset ∧ Chained part.word.span rest

structure NameTree where
  first : Word
  parts : List NamePart
  chained : Chained first.span parts

namespace NameTree

def tokens (tree : NameTree) : List Token :=
  tree.first.token :: tree.parts.flatMap NamePart.tokens

def text (tree : NameTree) : String :=
  "-".intercalate (tree.first.name :: tree.parts.map fun part => part.word.name)

def lastSpan (span : Span) (words : List Word) : Span :=
  (words.getLast?.map Word.span).getD span

def span (tree : NameTree) : Span :=
  tree.first.span.join (lastSpan tree.first.span (tree.parts.map NamePart.word))

end NameTree

/-! ## Expressions -/

/-- What joins two segments of a path. -/
inductive Joint where
  | point (span : Span)
  | colons (first second : Span) (adjacent : first.stop.offset = second.start.offset)

def Joint.tokens : Joint → List Token
  | point span => [.mark '.' span]
  | colons first second _ => [.mark ':' first, .mark ':' second]

/-- A further segment of a path. -/
structure Segment where
  joint : Joint
  word : Word

def Segment.tokens (segment : Segment) : List Token := segment.joint.tokens ++ [segment.word.token]

structure Arguments where
  raw : String
  inner : List Token
  span : Span

def Arguments.token (arguments : Arguments) : Token :=
  .group .paren arguments.raw arguments.inner arguments.span

inductive ExpressionTree where
  | group (delimiter : Delimiter) (raw : String) (inner : List Token) (span : Span)
  | path (head : Word) (segments : List Segment) (arguments : Option Arguments)

namespace ExpressionTree

def tokens : ExpressionTree → List Token
  | group delimiter raw inner span => [.group delimiter raw inner span]
  | path head segments arguments =>
    head.token :: (segments.flatMap Segment.tokens ++ arguments.toList.map Arguments.token)

def denoted : ExpressionTree → Expression
  | group delimiter raw inner span =>
    Capture.groupExpression delimiter (.group delimiter raw inner span)
  | path head segments arguments =>
    let further := segments.map fun segment => segment.word.name
    let whole := head.span.join
      (NameTree.lastSpan head.span (segments.map Segment.word))
    match arguments with
    | none => .path head.name further whole
    | some called =>
      .call (head.name :: further)
        (".".intercalate (head.name :: further) ++ Capture.hostCode called.token)
        (whole.join called.span)

end ExpressionTree

/-! ## Attributes -/

inductive ValueTree where
  | number (text : String) (span : Span)
  | quoted (value raw : String) (span : Span)
  | expression (tree : ExpressionTree)

namespace ValueTree

def tokens : ValueTree → List Token
  | number text span => [.number text span]
  | quoted value raw span => [.quoted value raw span]
  | expression tree => tree.tokens

def denoted : ValueTree → AttributeValue
  | number text span => .literal text text false span
  | quoted value raw span => .literal value raw true span
  | expression tree => .expression tree.denoted

end ValueTree

structure AttributeTree where
  name : NameTree
  equals : Span
  value : ValueTree

namespace AttributeTree

def tokens (tree : AttributeTree) : List Token :=
  tree.name.tokens ++ .mark '=' tree.equals :: tree.value.tokens

def denoted (tree : AttributeTree) : Attribute :=
  { name := tree.name.text
    value := tree.value.denoted
    nameSpan := tree.name.span
    span := tree.name.span.join tree.value.denoted.span }

/-- The attributes that several trees denote: those with one key are one, at the place of the first
and as the last is written. -/
def denotedAll (trees : List AttributeTree) : List Attribute :=
  (Table.lastWrites (trees.map fun tree => (keyOf tree.name.text, tree.denoted))).map Prod.snd

end AttributeTree

/-! ## Nodes and units -/

inductive NodeTree where
  | single (opened : Span) (name : NameTree) (attributes : List AttributeTree)
      (slash stop : Span)
  | paired (opened : Span) (name : NameTree) (attributes : List AttributeTree) (greater : Span)
      (children : List NodeTree) (less slash : Span) (closing : NameTree)
      (agree : closing.text.toLower = name.text.toLower) (stop : Span)
  | text (value raw : String) (span : Span)
  | block (raw : String) (inner : List Token) (span : Span)

namespace NodeTree

mutual

def tokens : NodeTree → List Token
  | single opened name attributes slash stop =>
    .mark '<' opened :: (name.tokens ++ (attributes.flatMap AttributeTree.tokens ++
      [.mark '/' slash, .mark '>' stop]))
  | paired opened name attributes greater children less slash closing _ stop =>
    .mark '<' opened :: (name.tokens ++ (attributes.flatMap AttributeTree.tokens ++
      .mark '>' greater :: (tokensAll children ++
        .mark '<' less :: .mark '/' slash :: (closing.tokens ++ [.mark '>' stop]))))
  | text value raw span => [.quoted value raw span]
  | block raw inner span => [.group .brace raw inner span]

def tokensAll : List NodeTree → List Token
  | [] => []
  | tree :: rest => tree.tokens ++ tokensAll rest

end

mutual

def denoted : NodeTree → Node
  | single opened name attributes _ stop =>
    .element ⟨name.text, AttributeTree.denotedAll attributes, true, name.span⟩ []
      (opened.join stop)
  | paired opened name attributes _ children _ _ _ _ stop =>
    .element ⟨name.text, AttributeTree.denotedAll attributes, false, name.span⟩
      (denotedAll children) (opened.join stop)
  | text value _ span => .text value span
  | block raw inner span => .block (Capture.groupExpression .brace (.group .brace raw inner span))

def denotedAll : List NodeTree → List Node
  | [] => []
  | tree :: rest => tree.denoted :: denotedAll rest

end

end NodeTree

structure UnitTree where
  root : NodeTree
  output : Option (Span × Word)
  stop : Position

namespace UnitTree

def tokens (tree : UnitTree) : List Token :=
  tree.root.tokens ++ (tree.output.toList.flatMap (fun found =>
    [.mark ':' found.1, found.2.token]) ++ [.endOfInput tree.stop])

def denoted (tree : UnitTree) : Source :=
  { root := tree.root.denoted
    output := tree.output.map fun found => (found.2.name, found.2.span)
    span := tree.root.denoted.span.join
      ((tree.output.map fun found => found.2.span).getD tree.root.denoted.span) }

end UnitTree

/-! ## Tokens have at most one tree -/

/-- Two sequences of trees with the same tokens are the same, if it can be seen where each tree and
where the sequence ends. -/
theorem flatMap_unique {α : Type} {tokens : α → List Token} (begins follows : List Token → Bool)
    {items others : List α} {rest more : List Token}
    (itemBegins : ∀ item behind, begins (tokens item ++ behind) = true)
    (itemFollows : ∀ item behind, follows (tokens item ++ behind) = true)
    (each : ∀ item ∈ items, ∀ other behind beyond, follows behind = true → follows beyond = true →
      tokens item ++ behind = tokens other ++ beyond → item = other ∧ behind = beyond)
    (restStops : begins rest = false) (restFollows : follows rest = true)
    (moreStops : begins more = false) (moreFollows : follows more = true)
    (same : items.flatMap tokens ++ rest = others.flatMap tokens ++ more) :
    items = others ∧ rest = more := by
  have followsAll : ∀ (list : List α) (behind : List Token), follows behind = true →
      follows (list.flatMap tokens ++ behind) = true := by
    intro list behind ends
    cases list with
    | nil => exact ends
    | cons item list =>
      rw [List.flatMap_cons, List.append_assoc]
      exact itemFollows item _
  induction items generalizing others with
  | nil =>
    cases others with
    | nil => exact ⟨rfl, same⟩
    | cons other others =>
      rw [List.flatMap_nil, List.nil_append, List.flatMap_cons, List.append_assoc] at same
      rw [same, itemBegins] at restStops
      cases restStops
  | cons item items ih =>
    rw [List.flatMap_cons, List.append_assoc] at same
    cases others with
    | nil =>
      rw [List.flatMap_nil, List.nil_append] at same
      rw [← same, itemBegins] at moreStops
      cases moreStops
    | cons other others =>
      rw [List.flatMap_cons, List.append_assoc] at same
      obtain ⟨here, further⟩ := List.forall_mem_cons.mp each
      obtain ⟨rfl, sameRest⟩ := here other _ _ (followsAll items rest restFollows)
        (followsAll others more moreFollows) same
      obtain ⟨rfl, sameEnd⟩ := ih further sameRest
      exact ⟨rfl, sameEnd⟩

/-- Tokens that neither a name nor an expression can go on with. -/
def endsPart : List Token → Bool
  | .identifier _ _ :: _ => true
  | .mark character _ :: _ => character == '=' || character == '/' || character == '>'
  | _ => false

def beginsNamePart : List Token → Bool
  | .mark character _ :: _ => character == '-'
  | _ => false

def beginsSegment : List Token → Bool
  | .mark character _ :: _ => character == '.' || character == ':'
  | _ => false

def beginsArguments : List Token → Bool
  | token :: _ => token.isGroup .paren
  | [] => false

def beginsAttribute : List Token → Bool
  | token :: _ => token.isIdentifier
  | [] => false

/-- Tokens that are not the start of a closing tag. -/
def beginsNode : List Token → Bool
  | .mark opened _ :: .mark slash _ :: _ => !(opened == '<' && slash == '/')
  | _ => true

section

variable {rest more : List Token}

theorem endsPart_cases (ends : endsPart rest = true) :
    beginsNamePart rest = false ∧ beginsSegment rest = false ∧ beginsArguments rest = false := by
  unfold endsPart at ends
  split at ends
  · exact ⟨rfl, rfl, rfl⟩
  · simp only [Bool.or_eq_true, beq_iff_eq] at ends
    rcases ends with (rfl | rfl) | rfl <;> exact ⟨rfl, rfl, rfl⟩
  · cases ends

theorem Word.token_injective {word other : Word} (same : word.token = other.token) :
    word = other := by
  cases word
  cases other
  cases same
  rfl

theorem NamePart.unique {part other : NamePart}
    (same : part.tokens ++ rest = other.tokens ++ more) : part = other ∧ rest = more := by
  obtain ⟨dash, word⟩ := part
  obtain ⟨otherDash, otherWord⟩ := other
  simp only [tokens, List.cons_append, List.nil_append, List.cons.injEq, Token.mark.injEq,
    true_and] at same
  obtain ⟨rfl, sameWord, sameRest⟩ := same
  cases Word.token_injective sameWord
  exact ⟨rfl, sameRest⟩

theorem NameTree.unique {tree other : NameTree} (restEnds : endsPart rest = true)
    (moreEnds : endsPart more = true) (same : tree.tokens ++ rest = other.tokens ++ more) :
    tree = other ∧ rest = more := by
  obtain ⟨first, parts, _⟩ := tree
  obtain ⟨otherFirst, otherParts, _⟩ := other
  rw [tokens, tokens, List.cons_append, List.cons_append, List.cons.injEq] at same
  cases Word.token_injective same.1
  obtain ⟨rfl, sameRest⟩ := flatMap_unique beginsNamePart (fun _ => true)
    (fun _ _ => rfl) (fun _ _ => rfl) (fun _ _ _ _ _ _ _ => NamePart.unique)
    (endsPart_cases restEnds).1 rfl (endsPart_cases moreEnds).1 rfl same.2
  exact ⟨rfl, sameRest⟩

theorem Segment.unique {segment other : Segment}
    (same : segment.tokens ++ rest = other.tokens ++ more) : segment = other ∧ rest = more := by
  obtain ⟨joint, word⟩ := segment
  obtain ⟨otherJoint, otherWord⟩ := other
  cases joint with
  | point span =>
    cases otherJoint with
    | point otherSpan =>
      simp only [tokens, Joint.tokens, List.cons_append, List.nil_append, List.cons.injEq,
        Token.mark.injEq, true_and] at same
      obtain ⟨rfl, sameWord, sameRest⟩ := same
      cases Word.token_injective sameWord
      exact ⟨rfl, sameRest⟩
    | colons => simp [tokens, Joint.tokens] at same
  | colons first second =>
    cases otherJoint with
    | point => simp [tokens, Joint.tokens] at same
    | colons otherFirst otherSecond =>
      simp only [tokens, Joint.tokens, List.cons_append, List.nil_append, List.cons.injEq,
        Token.mark.injEq, true_and] at same
      obtain ⟨rfl, rfl, sameWord, sameRest⟩ := same
      cases Word.token_injective sameWord
      exact ⟨rfl, sameRest⟩

theorem Segment.begins (segment : Segment) (behind : List Token) :
    beginsSegment (segment.tokens ++ behind) = true := by
  obtain ⟨joint, word⟩ := segment
  cases joint <;> rfl

/-- The arguments of a call are the only group behind a path. -/
theorem arguments_unique {arguments others : Option Arguments} (restEnds : endsPart rest = true)
    (moreEnds : endsPart more = true)
    (same : arguments.toList.map Arguments.token ++ rest =
      others.toList.map Arguments.token ++ more) :
    arguments = others ∧ rest = more := by
  cases arguments with
  | none =>
    cases others with
    | none => exact ⟨rfl, same⟩
    | some other =>
      have begins : rest = other.token :: more := same
      rw [begins] at restEnds
      cases restEnds
  | some called =>
    cases others with
    | none =>
      have begins : called.token :: rest = more := same
      rw [← begins] at moreEnds
      cases moreEnds
    | some other =>
      obtain ⟨raw, inner, span⟩ := called
      obtain ⟨otherRaw, otherInner, otherSpan⟩ := other
      cases same
      exact ⟨rfl, rfl⟩

theorem beginsSegment_arguments (arguments : Option Arguments) (ends : endsPart rest = true) :
    beginsSegment (arguments.toList.map Arguments.token ++ rest) = false := by
  cases arguments with
  | none => exact (endsPart_cases ends).2.1
  | some called => rfl

theorem ExpressionTree.unique {tree other : ExpressionTree} (restEnds : endsPart rest = true)
    (moreEnds : endsPart more = true) (same : tree.tokens ++ rest = other.tokens ++ more) :
    tree = other ∧ rest = more := by
  cases tree with
  | group delimiter raw inner span =>
    cases other with
    | group =>
      cases same
      exact ⟨rfl, rfl⟩
    | path => simp [tokens, Word.token] at same
  | path head segments arguments =>
    cases other with
    | group => simp [tokens, Word.token] at same
    | path otherHead otherSegments otherArguments =>
      simp only [tokens, List.cons_append, List.append_assoc, List.cons.injEq] at same
      obtain ⟨sameHead, sameTail⟩ := same
      cases Word.token_injective sameHead
      obtain ⟨rfl, sameArguments⟩ := flatMap_unique beginsSegment (fun _ => true)
        Segment.begins (fun _ _ => rfl) (fun _ _ _ _ _ _ _ => Segment.unique)
        (beginsSegment_arguments arguments restEnds) rfl
        (beginsSegment_arguments otherArguments moreEnds) rfl sameTail
      obtain ⟨rfl, sameRest⟩ := arguments_unique restEnds moreEnds sameArguments
      exact ⟨rfl, sameRest⟩

theorem ValueTree.unique {tree other : ValueTree} (restEnds : endsPart rest = true)
    (moreEnds : endsPart more = true) (same : tree.tokens ++ rest = other.tokens ++ more) :
    tree = other ∧ rest = more := by
  -- A literal is one token, and an expression does not begin with a literal.
  have notNumber : ∀ (text : String) (span : Span) (captured : ExpressionTree)
      (behind beyond : List Token),
      Token.number text span :: behind ≠ captured.tokens ++ beyond := by
    intro text span captured behind beyond
    cases captured <;> simp [ExpressionTree.tokens, Word.token]
  have notQuoted : ∀ (value raw : String) (span : Span) (captured : ExpressionTree)
      (behind beyond : List Token),
      Token.quoted value raw span :: behind ≠ captured.tokens ++ beyond := by
    intro value raw span captured behind beyond
    cases captured <;> simp [ExpressionTree.tokens, Word.token]
  cases tree with
  | number text span =>
    cases other with
    | number =>
      cases same
      exact ⟨rfl, rfl⟩
    | quoted => cases same
    | expression captured => exact absurd same (notNumber _ _ _ _ _)
  | quoted value raw span =>
    cases other with
    | number => cases same
    | quoted =>
      cases same
      exact ⟨rfl, rfl⟩
    | expression captured => exact absurd same (notQuoted _ _ _ _ _ _)
  | expression captured =>
    cases other with
    | number => exact absurd same.symm (notNumber _ _ _ _ _)
    | quoted => exact absurd same.symm (notQuoted _ _ _ _ _ _)
    | expression =>
      obtain ⟨rfl, sameRest⟩ := ExpressionTree.unique restEnds moreEnds same
      exact ⟨rfl, sameRest⟩

theorem AttributeTree.unique {tree other : AttributeTree} (restEnds : endsPart rest = true)
    (moreEnds : endsPart more = true) (same : tree.tokens ++ rest = other.tokens ++ more) :
    tree = other ∧ rest = more := by
  obtain ⟨name, equals, value⟩ := tree
  obtain ⟨otherName, otherEquals, otherValue⟩ := other
  simp only [tokens, List.append_assoc, List.cons_append] at same
  obtain ⟨rfl, behindName⟩ := NameTree.unique rfl rfl same
  simp only [List.cons.injEq, Token.mark.injEq, true_and] at behindName
  obtain ⟨rfl, behindEquals⟩ := behindName
  obtain ⟨rfl, sameRest⟩ := ValueTree.unique restEnds moreEnds behindEquals
  exact ⟨rfl, sameRest⟩

/-- The attributes of a start tag end where no name begins. -/
theorem attributes_unique {trees others : List AttributeTree}
    (restStops : beginsAttribute rest = false) (restEnds : endsPart rest = true)
    (moreStops : beginsAttribute more = false) (moreEnds : endsPart more = true)
    (same : trees.flatMap AttributeTree.tokens ++ rest =
      others.flatMap AttributeTree.tokens ++ more) :
    trees = others ∧ rest = more :=
  flatMap_unique beginsAttribute endsPart (fun _ _ => rfl) (fun _ _ => rfl)
    (fun _ _ _ _ _ behindEnds beyondEnds => AttributeTree.unique behindEnds beyondEnds)
    restStops restEnds moreStops moreEnds same

theorem endsPart_attributes (trees : List AttributeTree) (ends : endsPart rest = true) :
    endsPart (trees.flatMap AttributeTree.tokens ++ rest) = true := by
  cases trees with
  | nil => exact ends
  | cons tree trees => rfl

theorem startTag_unique {opened otherOpened : Span} {name other : NameTree}
    {trees others : List AttributeTree}
    (restStops : beginsAttribute rest = false) (restEnds : endsPart rest = true)
    (moreStops : beginsAttribute more = false) (moreEnds : endsPart more = true)
    (same : Token.mark '<' opened :: (name.tokens ++ (trees.flatMap AttributeTree.tokens ++ rest)) =
      .mark '<' otherOpened :: (other.tokens ++ (others.flatMap AttributeTree.tokens ++ more))) :
    opened = otherOpened ∧ name = other ∧ trees = others ∧ rest = more := by
  simp only [List.cons.injEq, Token.mark.injEq, true_and] at same
  obtain ⟨sameOpened, behindOpened⟩ := same
  obtain ⟨sameName, behindName⟩ := NameTree.unique (endsPart_attributes trees restEnds)
    (endsPart_attributes others moreEnds) behindOpened
  obtain ⟨sameTrees, sameRest⟩ := attributes_unique restStops restEnds moreStops moreEnds behindName
  exact ⟨sameOpened, sameName, sameTrees, sameRest⟩

end

/-! ## Trees of nodes -/

namespace NodeTree

theorem tokensAll_eq_flatMap (trees : List NodeTree) : tokensAll trees = trees.flatMap tokens := by
  induction trees with
  | nil => rfl
  | cons tree rest ih =>
    rw [tokensAll, ih, List.flatMap_cons]

theorem begins (tree : NodeTree) (behind : List Token) :
    beginsNode (tree.tokens ++ behind) = true := by
  cases tree <;> simp [tokens, NameTree.tokens, Word.token, beginsNode]

/-- No other tree derives a beginning of the same tokens. -/
def Decides (tree : NodeTree) : Prop :=
  ∀ (other : NodeTree) (rest more : List Token), tree.tokens ++ rest = other.tokens ++ more →
    tree = other ∧ rest = more

theorem decides_single (opened : Span) (name : NameTree) (attributes : List AttributeTree)
    (slash stop : Span) : Decides (single opened name attributes slash stop) := by
  intro other rest more same
  cases other with
  | single otherOpened otherName otherAttributes otherSlash otherStop =>
    simp only [tokens, List.cons_append, List.append_assoc, List.nil_append] at same
    obtain ⟨rfl, rfl, rfl, sameEnd⟩ := startTag_unique rfl rfl rfl rfl same
    cases sameEnd
    exact ⟨rfl, rfl⟩
  | paired otherOpened otherName otherAttributes greater children less otherSlash closing _ _ =>
    simp only [tokens, List.cons_append, List.append_assoc, List.nil_append] at same
    obtain ⟨-, -, -, sameEnd⟩ := startTag_unique rfl rfl rfl rfl same
    simp at sameEnd
  | text | block => simp [tokens] at same

/-- Children end at the first closing tag that no child begins with. -/
theorem decides_paired (opened : Span) (name : NameTree) (attributes : List AttributeTree)
    (greater : Span) {children : List NodeTree} (each : ∀ child ∈ children, child.Decides)
    (less slash : Span) (closing : NameTree)
    (agree : closing.text.toLower = name.text.toLower) (stop : Span) :
    Decides (paired opened name attributes greater children less slash closing agree stop) := by
  intro other rest more same
  cases other with
  | single otherOpened otherName otherAttributes otherSlash otherStop =>
    simp only [tokens, List.cons_append, List.append_assoc, List.nil_append] at same
    obtain ⟨-, -, -, sameEnd⟩ := startTag_unique rfl rfl rfl rfl same
    simp at sameEnd
  | paired otherOpened otherName otherAttributes otherGreater others otherLess otherSlash
      otherClosing _ otherStop =>
      simp only [tokens, tokensAll_eq_flatMap, List.cons_append, List.append_assoc,
        List.nil_append] at same
      obtain ⟨rfl, rfl, rfl, behindTag⟩ := startTag_unique rfl rfl rfl rfl same
      simp only [List.cons.injEq, Token.mark.injEq, true_and] at behindTag
      obtain ⟨rfl, behindGreater⟩ := behindTag
      obtain ⟨rfl, behindChildren⟩ := flatMap_unique beginsNode (fun _ => true)
        NodeTree.begins (fun _ _ => rfl) (fun child member other behind beyond _ _ =>
          each child member other behind beyond)
        rfl rfl rfl rfl behindGreater
      simp only [List.cons.injEq, Token.mark.injEq, true_and] at behindChildren
      obtain ⟨rfl, rfl, behindSlash⟩ := behindChildren
      obtain ⟨rfl, behindClosing⟩ := NameTree.unique rfl rfl behindSlash
      cases behindClosing
      exact ⟨rfl, rfl⟩
  | text | block => simp [tokens] at same

mutual

theorem decides (tree : NodeTree) : tree.Decides := by
  cases tree with
  | single opened name attributes slash stop =>
    exact decides_single opened name attributes slash stop
  | paired opened name attributes greater children less slash closing agree stop =>
    exact decides_paired opened name attributes greater (decides_of_mem children) less slash
      closing agree stop
  | text value raw span =>
    intro other rest more same
    cases other with
    | text =>
      cases same
      exact ⟨rfl, rfl⟩
    | _ => simp [tokens] at same
  | block raw inner span =>
    intro other rest more same
    cases other with
    | block =>
      cases same
      exact ⟨rfl, rfl⟩
    | _ => simp [tokens] at same

theorem decides_of_mem (trees : List NodeTree) : ∀ tree ∈ trees, tree.Decides := by
  cases trees with
  | nil => exact List.forall_mem_nil _
  | cons tree rest => exact List.forall_mem_cons.mpr ⟨tree.decides, decides_of_mem rest⟩

end

end NodeTree

/-- Tokens are derived in one way at most. -/
theorem UnitTree.eq_of_tokens_eq {tree other : UnitTree} (same : tree.tokens = other.tokens) :
    tree = other := by
  obtain ⟨root, output, stop⟩ := tree
  obtain ⟨otherRoot, otherOutput, otherStop⟩ := other
  obtain ⟨rfl, behindRoot⟩ := root.decides _ _ _ same
  cases output with
  | none =>
    cases otherOutput with
    | none =>
      cases behindRoot
      rfl
    | some => simp at behindRoot
  | some found =>
    cases otherOutput with
    | none => simp at behindRoot
    | some other =>
      obtain ⟨colon, name, span⟩ := found
      obtain ⟨otherColon, otherName, otherSpan⟩ := other
      cases behindRoot
      rfl

/-! ## Attributes as written -/

namespace AttributeTree

/-- An attribute is the last one that has its name, where names of one form are the same name. -/
def IsLast (form : String → String) (trees : List AttributeTree) (tree : AttributeTree) : Prop :=
  ∃ before behind, trees = before ++ tree :: behind ∧
    ∀ later ∈ behind, form later.name.text ≠ form tree.name.text

theorem IsLast.mem {form : String → String} {trees : List AttributeTree} {tree : AttributeTree}
    (last : IsLast form trees tree) : tree ∈ trees := by
  obtain ⟨before, behind, rfl, -⟩ := last
  exact List.mem_append_right before List.mem_cons_self

theorem mem_denotedAll {trees : List AttributeTree} {found : Attribute} :
    found ∈ denotedAll trees ↔ ∃ tree, IsLast keyOf trees tree ∧ tree.denoted = found := by
  simp only [denotedAll, List.mem_map, Table.mem_lastWrites]
  constructor
  · rintro ⟨_, ⟨before, behind, same, others⟩, rfl⟩
    obtain ⟨first, rest, rfl, -, sameRest⟩ := List.map_eq_append_iff.mp same
    obtain ⟨tree, further, rfl, rfl, rfl⟩ := List.map_eq_cons_iff.mp sameRest
    refine ⟨tree, ⟨first, further, rfl, ?_⟩, rfl⟩
    intro later member
    exact others _ (List.mem_map_of_mem member)
  · rintro ⟨tree, ⟨before, behind, rfl, others⟩, rfl⟩
    refine ⟨(keyOf tree.name.text, tree.denoted), ⟨_, _, List.map_append, ?_⟩, rfl⟩
    exact List.forall_mem_map.mpr others

/-- The attributes of a tag have different keys, in the order in which the keys are first
written. -/
theorem keys_denotedAll (trees : List AttributeTree) :
    (denotedAll trees).map (fun found => keyOf found.name) =
      distinct (trees.map fun tree => keyOf tree.name.text) := by
  have own : ∀ entry ∈ Table.lastWrites (trees.map fun tree =>
      (keyOf tree.name.text, tree.denoted)), keyOf entry.2.name = entry.1 := by
    rw [← Table.putAll_nil_eq_lastWrites]
    exact Table.forall_mem_putAll (List.forall_mem_map.mpr fun _ _ => rfl) (List.forall_mem_nil _)
  calc (denotedAll trees).map (fun found => keyOf found.name)
      = (Table.lastWrites (trees.map fun tree => (keyOf tree.name.text, tree.denoted))).names := by
        rw [denotedAll, List.map_map, Table.names]
        exact List.map_congr_left own
    _ = distinct (trees.map fun tree => keyOf tree.name.text) := by
        rw [Table.names_lastWrites, List.map_map]
        rfl

theorem nodup_keys_denotedAll (trees : List AttributeTree) :
    ((denotedAll trees).map fun found => keyOf found.name).Nodup := by
  rw [keys_denotedAll]
  have nodup := Table.nodup_distinct_names (trees.map fun tree => (keyOf tree.name.text, tree))
  rwa [List.map_map] at nodup

end AttributeTree

/-! ## Elements as written -/

/-- The attributes and the children of an element, as they are written. -/
def NodeTree.inside? : NodeTree → Option (List AttributeTree × List NodeTree)
  | .single _ _ attributes _ _ => some (attributes, [])
  | .paired _ _ attributes _ children _ _ _ _ _ => some (attributes, children)
  | .text _ _ _ => none
  | .block _ _ _ => none

theorem NodeTree.denotedAll_eq_map (trees : List NodeTree) :
    NodeTree.denotedAll trees = trees.map NodeTree.denoted := by
  induction trees with
  | nil => rfl
  | cons tree rest ih =>
    rw [NodeTree.denotedAll, ih, List.map_cons]

theorem NodeTree.inside?_of_denoted {tree : NodeTree} {tag : Tag} {children : List Node}
    {span : Span} (denotes : tree.denoted = .element tag children span) :
    ∃ attributes trees, tree.inside? = some (attributes, trees) ∧
      tag.attributes = AttributeTree.denotedAll attributes ∧
      children = trees.map NodeTree.denoted := by
  cases tree with
  | single opened name attributes slash stop =>
    cases denotes
    exact ⟨attributes, [], rfl, rfl, rfl⟩
  | paired opened name attributes greater trees less slash closing agree stop =>
    cases denotes
    exact ⟨attributes, trees, rfl, rfl, NodeTree.denotedAll_eq_map trees⟩
  | text | block => cases denotes

end TypedMarkup.Markup
