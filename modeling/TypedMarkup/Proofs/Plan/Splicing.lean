import TypedMarkup.Proofs.Plan.Blocks
import TypedMarkup.Proofs.Plan.Static
import TypedMarkup.Proofs.Plan.Texts

/-!
Contract: children that are written and children that a block yields.

Owns: the proof that it makes no difference to a document whether the further children of an element
are written in it or are made one by one and spliced into it.

A written child is checked against the constraint before anything is built, a spliced one when it is
added. Both parents are taken apart at the same point, behind their required children, and what is
left is `Document.ElementOf.extend` in both.
-/

namespace TypedMarkup

open Markup

variable {child : Node} {checked : Checked}

/-! ## Making required and further children apart -/

section

variable {registry : Registry} {output : Option OutputType} {scope : Scope} {source : String}
  {tag : Tag} {required further : List Node} {span : Span} {tree : Document.Node}

/-- An element with its required children alone, made as the start of one with more. -/
def Opens (registry : Registry) (output : Option OutputType) (scope : Scope) (source : String)
    (tag : Tag) (required : List Node) (span : Span) (head : CheckedTag) (bound : Element) : Prop :=
  ∃ left start leftPlans,
    checkNode registry source (.element tag required span) = .ok (.element head left []) ∧
    Draft.planNode output source none (.element head left []) =
      .ok (.element start leftPlans []) ∧
    Build.buildNode output scope (.element start leftPlans []) = .ok (.element bound)

theorem Opens.schema {head : CheckedTag} {bound : Element}
    (opens : Opens registry output scope source tag required span head bound) :
    bound.schema = head.schema := by
  obtain ⟨left, start, leftPlans, checked, planned, built⟩ := opens
  have fits := Draft.planNode_fits (checkNode_sound _ _ checked).2 planned
  obtain ⟨_, same, described⟩ := (Build.buildNode_blameless fits).of_eq_ok built
  obtain ⟨_, _, _, started, -, -, samePlan⟩ := Draft.planNode_element_eq_ok.mp planned
  cases same
  cases samePlan
  rw [described, Draft.planTag_schema started]

/-- There are as many children as the schema of their parent requires. -/
def RequiredComplete (registry : Registry) (tag : Tag) (required : List Node) : Prop :=
  ∀ schema, registry.schema? (keyOf tag.name) = some schema →
    required.length = schema.required.length

theorem checkNode_append_eq_ok (complete : RequiredComplete registry tag required) :
    checkNode registry source (.element tag (required ++ further) span) = .ok checked ↔
      ∃ head left right,
        checkNode registry source (.element tag required span) = .ok (.element head left []) ∧
        (∀ child ∈ further, checkAccepted registry source tag head.schema child = .ok ()) ∧
        List.Forall₂ (Checks registry source) further right ∧
        checked = .element head left right := by
  simp only [checkNode_element_iff]
  constructor
  · intro check
    generalize whole : required ++ further = children at check
    obtain @⟨schema, buckets, own, others, left, right, resolved, named, accepted, ownChecked,
      furtherChecked, sorted⟩ := check
    obtain ⟨rfl, rfl⟩ := List.append_inj whole ((complete schema resolved).trans named.length_eq)
    have alone : ElementChecks registry source tag span (required ++ []) _ :=
      .mk resolved named (List.forall_mem_nil _) ownChecked .nil sorted
    rw [List.append_nil] at alone
    exact ⟨_, left, right, alone, accepted, furtherChecked, rfl⟩
  · rintro ⟨head, left, right, without, accepted, furtherChecked, rfl⟩
    generalize whole : Checked.element head left [] = checked at without
    obtain ⟨resolved, named, -, ownChecked, none, sorted⟩ := without
    cases whole
    cases none
    rw [List.append_nil]
    exact .mk resolved named accepted ownChecked furtherChecked sorted

theorem planNode_further_eq_ok {head : CheckedTag} {left right : List Checked} {plan : NodePlan} :
    Draft.planNode output source none (.element head left right) = .ok plan ↔
      ∃ start leftPlans rightPlans,
        Draft.planNode output source none (.element head left []) =
          .ok (.element start leftPlans []) ∧
        right.mapM (Draft.planNode output source (some head)) = .ok rightPlans ∧
        plan = .element start leftPlans rightPlans := by
  simp only [Draft.planNode_element_eq_ok]
  constructor
  · rintro ⟨start, leftPlans, rightPlans, started, leftPlanned, rightPlanned, rfl⟩
    exact ⟨start, leftPlans, rightPlans, ⟨start, leftPlans, [], started, leftPlanned, rfl, rfl⟩,
      rightPlanned, rfl⟩
  · rintro ⟨start, leftPlans, rightPlans, ⟨_, _, _, started, leftPlanned, -, same⟩, rightPlanned,
      rfl⟩
    cases same
    exact ⟨start, leftPlans, rightPlans, started, leftPlanned, rightPlanned, rfl⟩

theorem buildNode_further_eq_ok {start : TagPlan} {left right : List NodePlan} :
    Build.buildNode output scope (.element start left right) = .ok tree ↔
      ∃ bound finished,
        Build.buildNode output scope (.element start left []) = .ok (.element bound) ∧
        Build.appendOptional output scope bound right = .ok finished ∧
        tree = .element finished := by
  simp only [Build.buildNode, bind_eq_ok, pure_eq_ok, Build.appendOptional]
  constructor
  · rintro ⟨started, starts, children, childrenBuilt, bound, binds, finished, added, rfl⟩
    exact ⟨bound, finished,
      ⟨started, starts, children, childrenBuilt, bound, binds, bound, rfl, rfl⟩, added, rfl⟩
  · rintro ⟨bound, finished, ⟨started, starts, children, childrenBuilt, _, binds, _, same, kept⟩,
      added, rfl⟩
    cases same
    cases kept
    exact ⟨started, starts, children, childrenBuilt, bound, binds, finished, added, rfl⟩

/-- An element with further children is opened, and takes what they come to. -/
theorem builds_append_iff (complete : RequiredComplete registry tag required) :
    (Node.element tag (required ++ further) span).Builds registry output scope source tree ↔
      ∃ head bound right plans finished,
        Opens registry output scope source tag required span head bound ∧
        (∀ child ∈ further, checkAccepted registry source tag head.schema child = .ok ()) ∧
        List.Forall₂ (Checks registry source) further right ∧
        right.mapM (Draft.planNode output source (some head)) = .ok plans ∧
        Build.appendOptional output scope bound plans = .ok finished ∧
        tree = .element finished := by
  constructor
  · rintro ⟨checked, plan, check, planned, built⟩
    obtain ⟨head, left, right, opened, accepted, furtherChecked, rfl⟩ :=
      (checkNode_append_eq_ok complete).mp check
    obtain ⟨start, leftPlans, plans, openedPlan, furtherPlanned, rfl⟩ :=
      planNode_further_eq_ok.mp planned
    obtain ⟨bound, finished, openedBuilt, added, same⟩ := buildNode_further_eq_ok.mp built
    exact ⟨head, bound, right, plans, finished,
      ⟨left, start, leftPlans, opened, openedPlan, openedBuilt⟩, accepted, furtherChecked,
      furtherPlanned, added, same⟩
  · rintro ⟨head, bound, right, plans, finished,
      ⟨left, start, leftPlans, opened, openedPlan, openedBuilt⟩, accepted, furtherChecked,
      furtherPlanned, added, same⟩
    exact ⟨.element head left right, .element start leftPlans plans,
      (checkNode_append_eq_ok complete).mpr
        ⟨head, left, right, opened, accepted, furtherChecked, rfl⟩,
      planNode_further_eq_ok.mpr ⟨start, leftPlans, plans, openedPlan, furtherPlanned, rfl⟩,
      buildNode_further_eq_ok.mpr ⟨bound, finished, openedBuilt, added, same⟩⟩

/-! ## Written children -/

section

variable (written : ∀ expression, child ≠ .block expression)

include written

theorem planNode_parent (check : checkNode registry source child = .ok checked)
    (parent : Option CheckedTag) :
    Draft.planNode output source parent checked = Draft.planNode output source none checked := by
  cases child with
  | element childTag below childSpan =>
    obtain ⟨-⟩ := checkNode_element_iff.mp check
    rw [Draft.planNode, Draft.planNode]
  | text value childSpan =>
    cases check
    rw [Draft.planNode, Draft.planNode]
  | block expression => exact absurd rfl (written expression)

theorem acceptedBy_of_builds {node : Document.Node}
    (builds : child.Builds registry output scope source node) {constraint : String}
    (accepted : constraint ∈ node.tags) : child.AcceptedBy registry constraint := by
  obtain ⟨checked, plan, check, planned, built⟩ := builds
  have fits := Draft.planNode_fits (checkNode_sound _ _ check).2 planned
  have described := (Build.buildNode_blameless fits).of_eq_ok built
  cases child with
  | element childTag below childSpan =>
    obtain ⟨resolved, -⟩ := checkNode_element_iff.mp check
    obtain ⟨start, _, _, started, -, -, rfl⟩ := Draft.planNode_element_eq_ok.mp planned
    obtain ⟨element, rfl, sameSchema⟩ := described
    rw [Document.Node.tags, sameSchema, Draft.planTag_schema started] at accepted
    exact ⟨_, resolved, by simpa [Schema.tags] using accepted⟩
  | text value childSpan =>
    cases check
    cases planned
    cases described
    exact accepted
  | block expression => exact absurd rfl (written expression)

theorem planNode_ne_block (check : checkNode registry source child = .ok checked)
    {parent : Option CheckedTag} {plan : NodePlan}
    (planned : Draft.planNode output source parent checked = .ok plan) (block : BlockPlan) :
    plan ≠ .block block := by
  cases child with
  | element childTag below childSpan =>
    obtain ⟨-⟩ := checkNode_element_iff.mp check
    obtain ⟨_, _, _, -, -, -, rfl⟩ := Draft.planNode_element_eq_ok.mp planned
    simp
  | text value childSpan =>
    cases check
    cases planned
    simp
  | block expression => exact absurd rfl (written expression)

end

theorem forall₂_congr_left {α β : Type} {first second : α → β → Prop} {items : List α}
    {results : List β}
    (same : ∀ item ∈ items, ∀ result, first item result ↔ second item result) :
    List.Forall₂ first items results ↔ List.Forall₂ second items results := by
  induction items generalizing results with
  | nil => simp
  | cons item rest ih =>
    obtain ⟨here, further⟩ := List.forall_mem_cons.mp same
    simp only [List.forall₂_cons_left_iff, here, ih further]

variable {children : List Node}

/-- Written children are made one by one, wherever they stand. -/
theorem forall₂_builds_iff {nodes : List Document.Node} (head : CheckedTag)
    (written : ∀ child ∈ children, ∀ expression, child ≠ .block expression) :
    List.Forall₂ (fun child node => child.Builds registry output scope source node) children
        nodes ↔
      ∃ right plans,
        List.Forall₂ (Checks registry source) children right ∧
        right.mapM (Draft.planNode output source (some head)) = .ok plans ∧
        List.Forall₂ (fun plan node => Build.buildNode output scope plan = .ok node) plans
          nodes := by
  have apart : List.Forall₂ (fun child node => child.Builds registry output scope source node)
        children nodes ↔
      List.Forall₂ (fun child node => ∃ checked, checkNode registry source child = .ok checked ∧
        ∃ plan, Draft.planNode output source (some head) checked = .ok plan ∧
          Build.buildNode output scope plan = .ok node) children nodes := by
    apply forall₂_congr_left
    intro child member node
    constructor
    · rintro ⟨checked, plan, check, planned, built⟩
      rw [← planNode_parent (written child member) check (some head)] at planned
      exact ⟨checked, check, plan, planned, built⟩
    · rintro ⟨checked, check, plan, planned, built⟩
      rw [planNode_parent (written child member) check (some head)] at planned
      exact ⟨checked, plan, check, planned, built⟩
  simp only [apart, forall₂_comp, mapM_eq_ok, exists_and_left]

theorem plans_ne_block {right : List Checked} {plans : List NodePlan} {parent : Option CheckedTag}
    (written : ∀ child ∈ children, ∀ expression, child ≠ .block expression)
    (checked : List.Forall₂ (Checks registry source) children right)
    (planned : right.mapM (Draft.planNode output source parent) = .ok plans) :
    ∀ plan ∈ plans, ∀ block, plan ≠ .block block := by
  intro plan member
  obtain ⟨part, partMember, partPlanned⟩ := exists_left_of_mem (mapM_eq_ok.mp planned) member
  obtain ⟨child, childMember, check⟩ := exists_left_of_mem checked partMember
  exact planNode_ne_block (written child childMember) check partPlanned

/-- Written children come to the nodes that they are made to by themselves. -/
theorem builds_inline_iff (complete : RequiredComplete registry tag required)
    (written : ∀ child ∈ children, ∀ expression, child ≠ .block expression) :
    (Node.element tag (required ++ children) span).Builds registry output scope source tree ↔
      ∃ head bound nodes finished,
        Opens registry output scope source tag required span head bound ∧
        List.Forall₂ (fun child node => child.Builds registry output scope source node) children
          nodes ∧
        bound.extend (nodes.map .node) = (finished, none) ∧
        tree = .element finished := by
  rw [builds_append_iff complete]
  constructor
  · rintro ⟨head, bound, right, plans, finished, opens, -, checked, planned, added, same⟩
    have notBlocks := plans_ne_block written checked planned
    obtain ⟨nodes, built, extended⟩ := (Build.appendOptional_eq_ok notBlocks).mp added
    exact ⟨head, bound, nodes, finished, opens,
      (forall₂_builds_iff head written).mpr ⟨right, plans, checked, planned, built⟩, extended, same⟩
  · rintro ⟨head, bound, nodes, finished, opens, builds, extended, same⟩
    obtain ⟨right, plans, checked, planned, built⟩ := (forall₂_builds_iff head written).mp builds
    have notBlocks := plans_ne_block written checked planned
    refine ⟨head, bound, right, plans, finished, opens, ?_, checked, planned,
      (Build.appendOptional_eq_ok notBlocks).mpr ⟨nodes, built, extended⟩, same⟩
    -- The element has taken the node, so the constraint accepts the child that the node is made of.
    intro child member
    obtain ⟨node, nodeMember, childBuilds⟩ := exists_left_of_mem builds.flip member
    obtain ⟨constraint, present, accepted⟩ :=
      (Document.extend_eq_none.mp extended).1 node nodeMember
    rw [opens.schema] at present
    exact checkAccepted_eq_ok.mpr
      ⟨constraint, present, acceptedBy_of_builds (written child member) childBuilds accepted⟩

/-! ## Spliced children -/

/-- A block comes to the nodes that it yields, if the element takes children at all. -/
theorem builds_spliced_iff (complete : RequiredComplete registry tag required)
    {expression : Expression} :
    (Node.element tag (required ++ [.block expression]) span).Builds registry output scope source
        tree ↔
      ∃ head bound nodes finished,
        Opens registry output scope source tag required span head bound ∧
        (∃ constraint, bound.schema.constraint = some constraint) ∧
        expression.Yields scope nodes ∧
        bound.extend (nodes.map .node) = (finished, none) ∧
        tree = .element finished := by
  rw [builds_append_iff complete]
  constructor
  · rintro ⟨head, bound, right, plans, finished, opens, accepts, checked, planned, added, same⟩
    obtain ⟨constraint, present, -⟩ :=
      checkAccepted_eq_ok.mp (accepts _ (List.mem_singleton.mpr rfl))
    rw [← opens.schema] at present
    obtain ⟨_, _, check, none, rfl⟩ := List.forall₂_cons_left_iff.mp checked
    cases none
    cases check
    cases planned
    obtain ⟨_, appended, rest⟩ := bind_eq_ok.mp added
    cases rest
    obtain ⟨found, nodes, evaluated, spliced, extended⟩ :=
      Build.appendBlock_eq_ok.mp (mapError_eq_ok.mp appended)
    exact ⟨head, bound, nodes, finished, opens, ⟨constraint, present⟩, ⟨found, evaluated, spliced⟩,
      extended, same⟩
  · rintro ⟨head, bound, nodes, finished, opens, ⟨constraint, present⟩, ⟨found, evaluated, spliced⟩,
      extended, same⟩
    rw [opens.schema] at present
    have appended : Build.appendBlock scope bound
        ⟨expression, head.tag.name, head.schema.constraint⟩ = .ok finished :=
      Build.appendBlock_eq_ok.mpr ⟨found, nodes, evaluated, spliced, extended⟩
    refine ⟨head, bound, [.block expression],
      [.block ⟨expression, head.tag.name, head.schema.constraint⟩], finished, opens, ?_, ?_, rfl,
      ?_, same⟩
    · intro child member
      cases List.mem_singleton.mp member
      exact checkAccepted_eq_ok.mpr ⟨constraint, present, trivial⟩
    · exact .cons rfl .nil
    · exact bind_eq_ok.mpr ⟨finished, mapError_eq_ok.mpr appended, rfl⟩

/-! ## Both ways -/

theorem Markup.Node.Static.ne_block (static : child.Static)
    (expression : Expression) : child ≠ .block expression := by
  rintro rfl
  exact static.blocks expression (.self _)

/-- A child in which nothing is computed comes to the same in every scope. -/
theorem Markup.Node.Static.builds_iff (static : child.Static) (own : Scope) {node : Document.Node} :
    child.Builds registry output own source node ↔
      child.Builds registry output scope source node := by
  have movable : ∀ here there : Scope, child.Builds registry output here source node →
      child.Builds registry output there source node := by
    rintro here there ⟨checked, plan, check, planned, built⟩
    obtain ⟨same, fits⟩ := checkNode_sound child checked check
    have settled : Build.Settled fun scope => Build.buildNode output scope plan :=
      Build.buildNode_settled (Draft.planNode_static fits (same ▸ static) planned)
    obtain ⟨answer, answered⟩ := settled
    have moved : Build.buildNode output there plan = .ok node :=
      (answered there).trans ((answered here).symm.trans built)
    exact ⟨checked, plan, check, planned, moved⟩
  exact ⟨movable own scope, movable scope own⟩

/-- Trees that write the further children of one parent and trees that splice them. -/
theorem builds_inline_iff_spliced (complete : RequiredComplete registry tag required)
    (nonempty : children ≠ []) (static : ∀ child ∈ children, child.Static)
    {expression : Expression} {own : Scope}
    (yields : ∀ nodes, List.Forall₂ (fun child node => child.Builds registry output own source node)
      children nodes → expression.Yields scope nodes) :
    (Node.element tag (required ++ children) span).Builds registry output scope source tree ↔
      (∃ nodes, List.Forall₂ (fun child node => child.Builds registry output own source node)
        children nodes) ∧
      (Node.element tag (required ++ [.block expression]) span).Builds registry output scope source
        tree := by
  have written : ∀ child ∈ children, ∀ expression, child ≠ .block expression :=
    fun child member => (static child member).ne_block
  have anywhere : ∀ nodes,
      List.Forall₂ (fun child node => child.Builds registry output own source node) children nodes ↔
        List.Forall₂ (fun child node => child.Builds registry output scope source node) children
          nodes :=
    fun nodes => forall₂_congr_left fun child member _ => (static child member).builds_iff own
  rw [builds_inline_iff complete written, builds_spliced_iff complete]
  constructor
  · rintro ⟨head, bound, nodes, finished, opens, builds, extended, same⟩
    have ownBuilds := (anywhere nodes).mpr builds
    -- There is a child, so there is a node, and the element could not take it without a constraint.
    obtain ⟨child, member⟩ := List.exists_mem_of_ne_nil children nonempty
    obtain ⟨node, nodeMember, -⟩ := exists_left_of_mem builds.flip member
    obtain ⟨constraint, present, -⟩ := (Document.extend_eq_none.mp extended).1 node nodeMember
    exact ⟨⟨nodes, ownBuilds⟩, head, bound, nodes, finished, opens, ⟨constraint, present⟩,
      yields nodes ownBuilds, extended, same⟩
  · rintro ⟨⟨nodes, ownBuilds⟩, head, bound, others, finished, opens, -, yielded, extended, same⟩
    obtain rfl := yielded.unique (yields nodes ownBuilds)
    exact ⟨head, bound, others, finished, opens, (anywhere others).mp ownBuilds, extended, same⟩

end

/-! ## Texts -/

section

variable {registry : Registry} {requested annotated : Option String} {scope own : Scope}

theorem makes_iff_of_output {source : String} {node : Markup.Node} {output : Option OutputType}
    {tree : Document.Node} (writes : Writes annotated source node)
    (resolved : outputOf annotated requested = .ok output) :
    Makes registry requested scope source tree ↔ node.Builds registry output scope "" tree := by
  rw [makes_iff_builds writes, resolved]
  simp

theorem forall₂_makes_iff {alone : List String} {children : List Markup.Node}
    {output : Option OutputType} {nodes : List Document.Node}
    (writes : List.Forall₂ (Writes annotated) alone children)
    (resolved : outputOf annotated requested = .ok output) :
    List.Forall₂ (Makes registry requested own) alone nodes ↔
      List.Forall₂ (fun child node => child.Builds registry output own "" node) children nodes := by
  induction writes generalizing nodes with
  | nil => simp
  | cons here _ ih =>
    simp only [List.forall₂_cons_left_iff, ih, makes_iff_of_output here resolved]

theorem render_eq_written {source : String} {tree : Document.Node}
    (makes : Makes registry requested scope source tree) :
    render source registry requested scope = tree.written := by
  obtain ⟨plan, compiled, built⟩ := makes
  rw [render, compiled]
  change (plan.build scope >>= fun node => node.written) = tree.written
  rw [built]
  rfl

/-- It makes no difference whether the further children of an element are written in it or spliced
into it. Take the text of a parent that has its required children and then others, texts and
elements in which nothing is computed; a text of the same parent that has one block in the place of
the others; and texts of the others by themselves. If the block yields what the others are made to,
then the first text makes a document if and only if each of the others makes one and the second text
does, and it is the same document with the same written form. -/
theorem written_children_agree_with_spliced {tag : Tag} {required children : List Markup.Node}
    {span : Span} {expression : Expression} {inline spliced : String} {alone : List String}
    (complete : RequiredComplete registry tag required) (nonempty : children ≠ [])
    (static : ∀ child ∈ children, child.Static)
    (writesInline : Writes annotated inline (.element tag (required ++ children) span))
    (writesSpliced : Writes annotated spliced
      (.element tag (required ++ [.block expression]) span))
    (writesAlone : List.Forall₂ (Writes annotated) alone children)
    (yields : ∀ nodes, List.Forall₂ (Makes registry requested own) alone nodes →
      expression.Yields scope nodes) :
    (∀ tree, Makes registry requested scope inline tree ↔
      (∃ nodes, List.Forall₂ (Makes registry requested own) alone nodes) ∧
        Makes registry requested scope spliced tree) ∧
    ∀ tree, Makes registry requested scope inline tree →
      render inline registry requested scope = render spliced registry requested scope := by
  have agree : ∀ tree, Makes registry requested scope inline tree ↔
      (∃ nodes, List.Forall₂ (Makes registry requested own) alone nodes) ∧
        Makes registry requested scope spliced tree := by
    intro tree
    cases resolved : outputOf annotated requested with
    | error failure =>
      rw [makes_iff_builds writesInline, makes_iff_builds writesSpliced]
      simp [resolved]
    | ok output =>
      simp only [forall₂_makes_iff writesAlone resolved] at yields ⊢
      rw [makes_iff_of_output writesInline resolved, makes_iff_of_output writesSpliced resolved]
      exact builds_inline_iff_spliced complete nonempty static yields
  refine ⟨agree, ?_⟩
  intro tree makes
  rw [render_eq_written makes, render_eq_written ((agree tree).mp makes).2]

theorem makes_unique {source : String} {tree other : Document.Node}
    (makes : Makes registry requested scope source tree)
    (again : Makes registry requested scope source other) : tree = other := by
  obtain ⟨plan, compiled, built⟩ := makes
  obtain ⟨otherPlan, compiledAgain, builtAgain⟩ := again
  cases compiled.symm.trans compiledAgain
  exact Except.ok.inj (built.symm.trans builtAgain)

/-- A text in which nothing is computed makes the same document in every scope. -/
theorem Writes.makes_anywhere {source : String} {node : Markup.Node} {tree : Document.Node}
    (writes : Writes annotated source node) (static : node.Static)
    (makes : Makes registry requested own source tree) :
    Makes registry requested scope source tree := by
  obtain ⟨output, resolved, builds⟩ := (makes_iff_builds writes).mp makes
  exact (makes_iff_builds writes).mpr ⟨output, resolved, (static.builds_iff own).mp builds⟩

end

namespace Panels

/-- An element that requires a child and takes others. -/
def declarations : String :=
  "card with [panel] FlowContent; panel in [FlowContent] with FlowContent"

def card : Tag := ⟨"card", [], false, .origin⟩

def required : List Markup.Node := [.element ⟨"panel", [], true, .origin⟩ [] .origin]

/-- A text to be escaped, and an element with an attribute and a child. -/
def children : List Markup.Node :=
  [.text "a<b" .origin,
    .element ⟨"panel", [⟨"title", .literal "x" "\"x\"" true .origin, .origin, .origin⟩], false,
      .origin⟩ [.text "c" .origin] .origin]

def inline : String := "<card><panel/> \"a<b\" <panel title=\"x\">\"c\"</panel></card>"

def spliced : String := "<card><panel/> \x7bparts\x7d</card>"

def alone : List String := ["\"a<b\"", "<panel title=\"x\">\"c\"</panel>"]

/-- The code of the block as it is handed to the host. -/
def code : String := "(\nparts\n)"

/-- The scope in which the block finds the given nodes. -/
def scope (nodes : List Document.Node) : Scope := .ofTable [("parts", .list (nodes.map .node))]

theorem get?_scope (nodes : List Document.Node) :
    (scope nodes).get? "parts" = some (.list (nodes.map .node)) := by
  change (Table.putAll Scope.defaults [("parts", .list (nodes.map .node))]).get? "parts" = _
  rw [Table.get?_putAll]
  rfl

theorem term_code : Expression.term code .origin = .ok (.name "parts") := by
  have reads : yields (fun found => match found with
      | .name identifier => identifier == "parts"
      | _ => false) (Expression.term code .origin) = true := by
    decide +kernel
  obtain ⟨found, read, decided⟩ := exists_of_yields reads
  split at decided
  · rw [read, eq_of_beq decided]
  · cases decided

end Panels

theorem spliced_panels_agree :
    ∃ registry nodes tree, Registry.ofSource Panels.declarations = .ok registry ∧
      List.Forall₂ (Makes registry none (.ofTable [])) Panels.alone nodes ∧
      Makes registry none (Panels.scope nodes) Panels.inline tree ∧
      Makes registry none (Panels.scope nodes) Panels.spliced tree ∧
      render Panels.inline registry none (Panels.scope nodes) =
        render Panels.spliced registry none (Panels.scope nodes) := by
  have makes : yields (fun registry =>
      (Panels.inline :: Panels.alone).all (fun text => yields (fun plan =>
        yields (fun _ => true) (plan.build (.ofTable []))) (compile text registry none)) &&
      (registry.schema? "card").all (fun schema => schema.required.length == 1))
      (Registry.ofSource Panels.declarations) = true := by
    decide +kernel
  obtain ⟨registry, declared, decided⟩ := exists_of_yields makes
  rw [Bool.and_eq_true, List.all_eq_true] at decided
  have made : ∀ text ∈ Panels.inline :: Panels.alone,
      ∃ tree, Makes registry none (.ofTable []) text tree := by
    intro text member
    obtain ⟨plan, compiled, builds⟩ := exists_of_yields (decided.1 text member)
    obtain ⟨tree, built, -⟩ := exists_of_yields builds
    exact ⟨tree, plan, compiled, built⟩
  obtain ⟨tree, inlineMakes⟩ := made Panels.inline List.mem_cons_self
  obtain ⟨first, firstMakes⟩ := made "\"a<b\"" (by decide)
  obtain ⟨second, secondMakes⟩ := made "<panel title=\"x\">\"c\"</panel>" (by decide)
  have aloneMakes : List.Forall₂ (Makes registry none (.ofTable [])) Panels.alone
      [first, second] :=
    .cons firstMakes (.cons secondMakes .nil)
  have complete : RequiredComplete registry Panels.card Panels.required := by
    intro schema found
    have key : keyOf Panels.card.name = "card" := by decide
    rw [key] at found
    rw [found] at decided
    exact (eq_of_beq decided.2).symm
  have staticAll : (Node.element Panels.card (Panels.required ++ Panels.children) .origin).Static :=
    Node.static_of_isStatic _ (by decide)
  have writesInline : Writes none Panels.inline
      (.element Panels.card (Panels.required ++ Panels.children) .origin) := by
    decide +kernel
  have writesSpliced : Writes none Panels.spliced (.element Panels.card
      (Panels.required ++ [.block (.group .brace Panels.code .origin)]) .origin) := by
    decide +kernel
  have writesAlone : List.Forall₂ (Writes none) Panels.alone Panels.children :=
    .cons (by decide +kernel) (.cons (by decide +kernel) .nil)
  have yielded : ∀ nodes, List.Forall₂ (Makes registry none (.ofTable [])) Panels.alone nodes →
      (Expression.group .brace Panels.code .origin).Yields (Panels.scope [first, second])
        nodes := by
    intro nodes others
    have unique : Relator.RightUnique (Makes registry none (.ofTable [])) :=
      fun _ _ _ => makes_unique
    obtain rfl := List.right_unique_forall₂' unique aloneMakes others
    have short : 2 < Host.steps := by decide
    exact Expression.yields_of_name Panels.term_code (Panels.get?_scope _) short
  obtain ⟨agree, sameText⟩ := written_children_agree_with_spliced complete (by decide)
    (fun child member => staticAll.child (List.mem_append_right _ member)) writesInline
    writesSpliced writesAlone yielded
  have inlineThere : Makes registry none (Panels.scope [first, second]) Panels.inline tree :=
    writesInline.makes_anywhere staticAll inlineMakes
  exact ⟨registry, [first, second], tree, declared, aloneMakes, inlineThere,
    ((agree tree).mp inlineThere).2, sameText tree inlineThere⟩

end TypedMarkup
