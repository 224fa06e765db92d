import TypedMarkup.Proofs.Markup.Acceptance
import TypedMarkup.Proofs.Plan.Rendering

/-!
Contract: how a written tree becomes a document.

Owns: `Begins`, what an element has before it gets its children, computed values included,
`Markup.NodeTree.Becomes`, which pairs every element that is written in a unit with the element that
is built for it, and the theorem that a compiled and built unit has become its document in this way.

The trees are those of the grammar, so an element comes with all of its attributes as they are
written, also with those that a later one replaces.

Does not own: the nodes that blocks hand over, which are built elsewhere.
-/

namespace TypedMarkup

open Markup

variable {element : Element} {own : List AttributeTree → Element → Prop} {tree : NodeTree}
  {nodes : List Document.Node}

/-! ## Attributes by kind -/

/-- A name has no other meaning than the attribute with its key. -/
def IsTypedName (name key : String) : Prop :=
  key = keyOf name ∧ (∀ rest, ¬ IsDataName name rest) ∧ ∀ event, ¬ IsEventName name event

namespace Markup.Direct

variable {attributes : List Attribute} {entry : String × Attribute}

theorem mem_filterMap_named {read : String → Option String} :
    (entry ∈ attributes.filterMap fun found => (read found.name).map fun name => (name, found)) ↔
      entry.2 ∈ attributes ∧ read entry.2.name = some entry.1 := by
  simp only [List.mem_filterMap, Option.map_eq_some_iff]
  constructor
  · rintro ⟨found, member, name, named, rfl⟩
    exact ⟨member, named⟩
  · rintro ⟨member, named⟩
    exact ⟨entry.2, member, entry.1, named, rfl⟩

theorem mem_dataEntries :
    entry ∈ dataEntries attributes ↔ entry.2 ∈ attributes ∧ IsDataName entry.2.name entry.1 := by
  rw [dataEntries, mem_filterMap_named, dataNameOf?_eq_some]

theorem mem_eventEntries :
    entry ∈ eventEntries attributes ↔ entry.2 ∈ attributes ∧ IsEventName entry.2.name entry.1 := by
  rw [eventEntries, mem_filterMap_named, eventOf?_eq_some]

theorem mem_typedEntries :
    entry ∈ typedEntries attributes ↔ entry.2 ∈ attributes ∧ IsTypedName entry.2.name entry.1 := by
  have unnamed : ∀ name : String, ((dataNameOf? name).isNone && (eventOf? name).isNone) = true ↔
      (∀ rest, ¬ IsDataName name rest) ∧ ∀ event, ¬ IsEventName name event := by
    intro name
    simp only [Bool.and_eq_true, Option.isNone_iff_eq_none, Option.eq_none_iff_forall_ne_some,
      ne_eq, dataNameOf?_eq_some, eventOf?_eq_some]
  simp only [typedEntries, List.mem_filterMap, Option.ite_none_right_eq_some, unnamed]
  constructor
  · rintro ⟨found, member, typed, same⟩
    cases same
    exact ⟨member, rfl, typed⟩
  · rintro ⟨member, sameKey, typed⟩
    exact ⟨entry.2, member, typed, congrArg some (Prod.ext sameKey.symm rfl)⟩

end Markup.Direct

/-! ## The start of an element -/

def AttributeValue.ComesTo (scope : Scope) : AttributeValue → String → Prop
  | .literal written _ _ _, text => text = written
  | .expression code, text =>
    ∃ found, code.evaluate scope = .ok found ∧ found.value.shown = .ok text

theorem AttributeValue.ComesTo.unique {scope : Scope} {value : AttributeValue}
    {first second : String} (firstComes : value.ComesTo scope first)
    (secondComes : value.ComesTo scope second) : first = second := by
  cases value with
  | literal written raw quoted span => exact firstComes.trans secondComes.symm
  | expression code =>
    obtain ⟨found, evaluated, shown⟩ := firstComes
    obtain ⟨other, otherEvaluated, otherShown⟩ := secondComes
    cases evaluated.symm.trans otherEvaluated
    exact Except.ok.inj (shown.symm.trans otherShown)

/-- What an element has of its attributes: each of them is written to the table that its name says,
in the order of the tag. -/
structure Begins (scope : Scope) (attributes : List Attribute) (element : Element) : Prop where
  slots : ∃ values, List.Forall₂ (ReadFrom fun _ _ _ => True) (Direct.typedEntries attributes)
    values ∧ element.slots = Table.putAll
      (element.schema.attributes.map fun entry => (entry.1, Value.none)) values
  data : ∃ texts, List.Forall₂ (ReadFrom fun _ found => found.value.ComesTo scope)
    (Direct.dataEntries attributes) texts ∧ element.data = Table.putAll [] texts
  handlers : ∃ bound, List.Forall₂ (ReadFrom fun _ _ _ => True) (Direct.eventEntries attributes)
    bound ∧ element.handlers = Table.putAll [] bound

def BeginsAsWritten (scope : Scope) (attributes : List AttributeTree) (element : Element) : Prop :=
  Begins scope (AttributeTree.denotedAll attributes) element

theorem Begins.withChildren {scope : Scope} {attributes : List Attribute}
    (begins : Begins scope attributes element) (required optional : List Document.Node) :
    Begins scope attributes { element with required := required, optional := optional } :=
  ⟨begins.slots, begins.data, begins.handlers⟩

namespace Build

section

variable {schema : Schema} {source name : String} {output : Option OutputType} {scope : Scope}
  {before after : Element}

/-- A typed attribute is written at its key, wherever its value comes from. -/
theorem setAttribute_puts {typed : TypedAttribute} {plan : AttributePlan}
    (declared : typed.Declared schema)
    (planned : Draft.planAttribute source name typed = .ok plan)
    (set : setAttribute scope before plan = .ok after) :
    ∃ entry, ReadFrom (fun _ _ _ => True) (typed.key, typed.written) entry ∧
      after = putSlot before entry := by
  have named : plan.name = typed.key := by
    unfold Draft.planAttribute at planned
    split at planned
    · cases planned
      rfl
    · split at planned
      · cases planned
        rfl
      · cases planned
  have sameKey : keyOf plan.name = typed.key := by rw [named, declared.key, keyOf_keyOf]
  obtain ⟨value, assigned⟩ := setAttribute_eq_ok set
  obtain ⟨-, rfl⟩ := Document.setAttribute_eq_ok.mp assigned
  refine ⟨(typed.key, value), ⟨rfl, trivial⟩, ?_⟩
  rw [putSlot, sameKey]

theorem setData_puts {entry : String × Attribute}
    (set : setData scope before (Draft.planData entry) = .ok after) :
    ∃ written, ReadFrom (fun _ found => found.value.ComesTo scope) entry written ∧
      after = putData before written := by
  obtain ⟨dataName, found⟩ := entry
  obtain ⟨attributeName, value, nameSpan, span⟩ := found
  cases value with
  | literal written raw quoted place =>
    cases set
    exact ⟨(dataName, written), ⟨rfl, rfl⟩, rfl⟩
  | expression code =>
    obtain ⟨evaluated, computed, behindValue⟩ := bind_eq_ok.mp set
    obtain ⟨text, shown, same⟩ := bind_eq_ok.mp behindValue
    cases pure_eq_ok.mp same
    exact ⟨(dataName, text), ⟨rfl, evaluated, computed, shown⟩, rfl⟩

theorem setHandler_puts {entry : String × Attribute} {plan : EventPlan}
    (planned : Draft.planEvent output source name entry = .ok plan)
    (set : setHandler output scope before plan = .ok after) :
    ∃ bound, ReadFrom (fun _ _ _ => True) entry bound ∧ after = putHandler before bound := by
  have named : plan.event = entry.1 := by
    unfold Draft.planEvent at planned
    split at planned
    · cases planned
    · split at planned
      · cases planned
        rfl
      · split at planned
        · cases planned
          rfl
        · cases planned
  obtain ⟨_, _, _, bound, rfl⟩ := setHandler_eq_ok set
  obtain ⟨_, -, rfl⟩ := map_eq_ok.mp bound
  exact ⟨(plan.event, _), ⟨named, trivial⟩, rfl⟩

theorem startElement_begins {head : CheckedTag} {plan : TagPlan} {started : Element}
    (divided : head.buckets.Divides head.schema head.tag.attributes)
    (planned : Draft.planTag output source head = .ok plan)
    (began : startElement output scope plan = .ok started) :
    Begins scope head.tag.attributes started ∧ started.required = [] ∧ started.optional = [] := by
  obtain ⟨values, texts, bound, typedMatched, dataMatched, eventsMatched, rfl⟩ :=
    startElement_entries divided
      (fun typed member _ _ _ => setAttribute_puts (divided.typed typed member))
      (fun _ _ _ _ => setData_puts) (fun _ _ _ _ _ => setHandler_puts) planned began
  exact ⟨⟨⟨values, typedMatched, rfl⟩, ⟨texts, dataMatched, rfl⟩, ⟨bound, eventsMatched, rfl⟩⟩,
    rfl, rfl⟩

/-! ## Children -/

/-- A plan has become nodes of a document: one that is built for it or, for a block, any that it
hands over. -/
def Grows (output : Option OutputType) (scope : Scope) (plan : NodePlan)
    (nodes : List Document.Node) : Prop :=
  (∃ block, plan = .block block) ∨ ∃ node, buildNode output scope plan = .ok node ∧ nodes = [node]

/-- A block adds nodes behind those that are there and changes nothing else. -/
theorem appendBlock_adds {block : BlockPlan} {extended : Element}
    (appended : appendBlock scope element block = .ok extended) :
    ∃ nodes, extended = { element with optional := element.optional ++ nodes } := by
  obtain ⟨found, _, behindValue⟩ := bind_eq_ok.mp appended
  obtain ⟨pending, _, run⟩ := bind_eq_ok.mp behindValue
  refine appendPending_keeps
    (fun grown => ∃ nodes, grown = { element with optional := element.optional ++ nodes })
    (fun _ => True) ?_ trivial run ⟨[], by rw [List.append_nil]⟩
  intro _ node _ _ _
  refine ⟨trivial, ?_⟩
  rintro _ longer added ⟨nodes, rfl⟩
  obtain ⟨_, -, -, rfl⟩ := Document.append_eq_ok.mp added
  exact ⟨nodes ++ [node], by rw [List.append_assoc]⟩

/-- Optional children are added in order, those of a block where the block stands. -/
theorem appendOptional_adds {plans : List NodePlan} {finished : Element}
    (appended : appendOptional output scope element plans = .ok finished) :
    ∃ groups, List.Forall₂ (Grows output scope) plans groups ∧
      finished = { element with optional := element.optional ++ groups.flatten } := by
  rw [appendOptional_eq_foldlM] at appended
  induction plans generalizing element with
  | nil =>
    cases appended
    exact ⟨[], .nil, by rw [List.flatten_nil, List.append_nil]⟩
  | cons plan rest ih =>
    rw [List.foldlM_cons] at appended
    obtain ⟨extended, added, behind⟩ := bind_eq_ok.mp appended
    have grows : ∃ nodes, Grows output scope plan nodes ∧
        extended = { element with optional := element.optional ++ nodes } := by
      rcases plan.block_or_written with ⟨block, rfl⟩ | written
      · obtain ⟨nodes, rfl⟩ := appendBlock_adds (mapError_eq_ok.mp added)
        exact ⟨nodes, .inl ⟨block, rfl⟩, rfl⟩
      · rw [appendChild_written written] at added
        obtain ⟨node, built, taken⟩ := bind_eq_ok.mp added
        obtain ⟨_, -, -, rfl⟩ := Document.append_eq_ok.mp (mapError_eq_ok.mp taken)
        exact ⟨[node], .inr ⟨node, built, rfl⟩, rfl⟩
    obtain ⟨nodes, here, rfl⟩ := grows
    obtain ⟨groups, grown, rfl⟩ := ih behind
    refine ⟨nodes :: groups, .cons here grown, ?_⟩
    rw [List.flatten_cons, List.append_assoc]

/-- What is built for an element: its own beginning, and its children in the order of the plan. -/
theorem buildNode_element_grows {head : TagPlan} {required optional : List NodePlan}
    {node : Document.Node}
    (built : buildNode output scope (.element head required optional) = .ok node)
    (childless : ∀ started, startElement output scope head = .ok started →
      started.required = [] ∧ started.optional = []) :
    ∃ started bound added groups, startElement output scope head = .ok started ∧
      List.Forall₂ (Grows output scope) (required ++ optional) groups ∧
      bound ++ added = groups.flatten ∧
      node = .element { started with required := bound, optional := added } := by
  obtain ⟨started, bound, holding, finished, began, requiredBuilt, boundSet, appended, rfl⟩ :=
    buildNode_element_eq_ok built
  obtain ⟨noRequired, noOptional⟩ := childless started began
  obtain rfl := setRequired_writes noRequired boundSet
  obtain ⟨groups, optionalGrown, rfl⟩ := appendOptional_adds appended
  have requiredGrown :
      List.Forall₂ (Grows output scope) required (bound.map fun child => [child]) := by
    rw [List.forall₂_map_right_iff]
    exact (mapM_eq_ok.mp requiredBuilt).imp fun _ child childBuilt => .inr ⟨child, childBuilt, rfl⟩
  refine ⟨started, bound, groups.flatten, _, began, List.rel_append requiredGrown optionalGrown, ?_,
    ?_⟩
  · rw [List.flatten_append, ← List.flatMap_def, List.flatMap_singleton']
  · rw [noOptional, List.nil_append]

end

end Build

/-! ## Trees -/

namespace Markup

/-- A written node has become nodes of a document. A text and an element have become one node each,
and a block any number of them. The children of an element are what has become of its written
children, in their order. `own` is known of each written element, by its written attributes. -/
inductive NodeTree.Becomes (own : List AttributeTree → Element → Prop) :
    NodeTree → List Document.Node → Prop where
  | text (value raw : String) (span : Span) : Becomes own (.text value raw span) [.text value]
  | block (raw : String) (inner : List Token) (span : Span) (nodes : List Document.Node) :
      Becomes own (.block raw inner span) nodes
  | element {tree : NodeTree} {attributes : List AttributeTree} {element : Element}
      {parts : List (NodeTree × List Document.Node)}
      (written : tree.inside? = some (attributes, parts.map Prod.fst))
      (here : own attributes element)
      (children : element.children = parts.flatMap Prod.snd)
      (below : ∀ part ∈ parts, Becomes own part.1 part.2) : Becomes own tree [.element element]

theorem NodeTree.Becomes.imp {other : List AttributeTree → Element → Prop}
    (implied : ∀ attributes element, own attributes element → other attributes element)
    (becomes : tree.Becomes own nodes) :
    tree.Becomes other nodes := by
  induction becomes with
  | text value raw span => exact .text value raw span
  | block raw inner span nodes => exact .block raw inner span nodes
  | element written here children _ ih =>
    exact .element written (implied _ _ here) children ih

/-- A written element has become one element, and `own` is known of it. -/
theorem NodeTree.Becomes.exists_element {attributes : List AttributeTree}
    {trees : List NodeTree} (becomes : tree.Becomes own nodes)
    (written : tree.inside? = some (attributes, trees)) :
    ∃ element, nodes = [.element element] ∧ own attributes element := by
  cases becomes with
  | text | block => cases written
  | element sameWritten here _ _ =>
    cases sameWritten.symm.trans written
    exact ⟨_, rfl, here⟩

end Markup

namespace Build

section

variable {source : String} {output : Option OutputType} {scope : Scope}

/-- Children that have become nodes one by one have become them all in a row. -/
theorem exists_parts {parent : CheckedTag}
    {trees : List NodeTree} {checked : List Checked} {plans : List NodePlan}
    {groups : List (List Document.Node)}
    (each : ∀ child ∈ checked, ∀ (tree : NodeTree) plan nodes, tree.denoted = child.erase →
      Draft.planNode output source (some parent) child = .ok plan → Grows output scope plan nodes →
        tree.Becomes own nodes)
    (denoted : trees.map NodeTree.denoted = checked.map Checked.erase)
    (planned : List.Forall₂
      (fun child plan => Draft.planNode output source (some parent) child = .ok plan) checked plans)
    (grown : List.Forall₂ (Grows output scope) plans groups) :
    ∃ parts : List (NodeTree × List Document.Node), parts.map Prod.fst = trees ∧
      parts.flatMap Prod.snd = groups.flatten ∧ ∀ part ∈ parts, part.1.Becomes own part.2 := by
  induction planned generalizing trees groups with
  | nil =>
    cases grown
    exact ⟨[], (List.map_eq_nil_iff.mp denoted).symm, rfl, List.forall_mem_nil _⟩
  | @cons child plan _ _ childPlanned _ ih =>
    obtain ⟨tree, rest, rfl, childDenoted, restDenoted⟩ := List.map_eq_cons_iff.mp denoted
    obtain ⟨eachHere, eachFurther⟩ := List.forall_mem_cons.mp each
    cases grown with
    | @cons _ nodes _ further childGrown restGrown =>
      obtain ⟨parts, rfl, sameNodes, become⟩ :=
        ih eachFurther restDenoted restGrown
      refine ⟨(tree, nodes) :: parts, rfl, ?_, ?_⟩
      · rw [List.flatMap_cons, sameNodes, List.flatten_cons]
      · have here := eachHere tree plan nodes childDenoted childPlanned childGrown
        exact List.forall_mem_cons.mpr ⟨here, become⟩

/-- A tree that has been checked and planned becomes what is built for it. -/
theorem planNode_becomes {registry : Registry} {checked : Checked} (fits : checked.Fits registry)
    {parent : Option CheckedTag} {plan : NodePlan}
    (denotes : tree.denoted = checked.erase)
    (planned : Draft.planNode output source parent checked = .ok plan)
    (grows : Grows output scope plan nodes) :
    tree.Becomes (BeginsAsWritten scope) nodes := by
  induction fits generalizing parent tree plan nodes with
  | text value span =>
    cases planned
    rcases grows with ⟨_, same⟩ | ⟨node, built, rfl⟩
    · cases same
    · cases built
      cases tree with
      | text written raw place =>
        cases denotes
        exact .text _ _ _
      | _ => cases denotes
  | block expression =>
    cases tree with
    | block raw inner place => exact .block raw inner place nodes
    | _ => cases denotes
  | @element head required optional _ _ _ divided _ _ requiredHypothesis optionalHypothesis =>
    obtain ⟨start, requiredPlans, optionalPlans, startPlanned, requiredPlanned, optionalPlanned,
      rfl⟩ := Draft.planNode_element_eq_ok.mp planned
    rcases grows with ⟨_, same⟩ | ⟨node, built, rfl⟩
    · cases same
    · obtain ⟨started, bound, added, groups, began, childrenGrown, inRow, rfl⟩ :=
        buildNode_element_grows built fun _ startedHere =>
          (startElement_begins divided startPlanned startedHere).2
      have begins := (startElement_begins divided startPlanned began).1
      obtain ⟨attributes, trees, written, sameAttributes, childrenDenoted⟩ :=
        NodeTree.inside?_of_denoted denotes
      rw [Checked.eraseAll_eq_map, Checked.eraseAll_eq_map, ← List.map_append] at childrenDenoted
      have each : ∀ child ∈ required ++ optional, ∀ (tree : NodeTree) plan nodes,
          tree.denoted = child.erase →
          Draft.planNode output source (some head) child = .ok plan →
            Grows output scope plan nodes → tree.Becomes (BeginsAsWritten scope) nodes := by
        intro child member _ _ _
        rcases List.mem_append.mp member with inRequired | inOptional
        · exact requiredHypothesis child inRequired
        · exact optionalHypothesis child inOptional
      obtain ⟨parts, rfl, sameNodes, become⟩ := exists_parts each childrenDenoted.symm
        (List.rel_append (mapM_eq_ok.mp requiredPlanned) (mapM_eq_ok.mp optionalPlanned))
        childrenGrown
      refine .element written ?_ ?_ become
      · rw [BeginsAsWritten, ← sameAttributes]
        exact begins.withChildren bound added
      · rw [sameNodes, ← inRow, Document.ElementOf.children]

end

end Build

/-- A unit that is compiled and built becomes its document, element by element. -/
theorem exists_tree_becomes {source : String} {registry : Registry} {requested : Option String}
    {plan : Plan} {scope : Scope} {node : Document.Node}
    (compiled : compile source registry requested = .ok plan)
    (built : plan.build scope = .ok node) :
    ∃ tokens tree, tokensOf source = .ok tokens ∧ UnitTree.tokens tree = tokens.toList ∧
      tree.root.Becomes (BeginsAsWritten scope) [node] := by
  obtain ⟨unit, checked, output, parsed, accepted, -, root, planned, rfl⟩ :=
    compile_eq_ok.mp compiled
  obtain ⟨tokens, tokenized, read⟩ := bind_eq_ok.mp parsed
  obtain ⟨tree, derives, rfl⟩ := Grammar.unit_sound read
  obtain ⟨sameTree, fits⟩ := checkNode_sound _ checked accepted
  have grows : Build.Grows output scope root [node] := .inr ⟨node, mapError_eq_ok.mp built, rfl⟩
  exact ⟨tokens, tree, tokenized, derives,
    Build.planNode_becomes fits sameTree.symm planned grows⟩

/-- Whether a unit can be compiled and built with the elements of a declaration text. -/
def isBuilt (declarations source : String) (requested : Option String) (scope : Scope) : Bool :=
  yields (fun registry => yields (fun plan => yields (fun _ => true) (plan.build scope))
    (compile source registry requested)) (Registry.ofSource declarations)

theorem exists_of_isBuilt {declarations source : String} {requested : Option String} {scope : Scope}
    (decided : isBuilt declarations source requested scope = true) :
    ∃ registry plan node, Registry.ofSource declarations = .ok registry ∧
      compile source registry requested = .ok plan ∧ plan.build scope = .ok node := by
  obtain ⟨registry, declared, compiles⟩ := exists_of_yields decided
  obtain ⟨plan, compiled, builds⟩ := exists_of_yields compiles
  obtain ⟨node, built, -⟩ := exists_of_yields builds
  exact ⟨registry, plan, node, declared, compiled, built⟩

end TypedMarkup
