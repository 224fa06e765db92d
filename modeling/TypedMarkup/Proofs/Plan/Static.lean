import TypedMarkup.Proofs.Plan.Blameless

/-!
Contract: what building can depend on.

Owns: `Markup.Node.Static`, the trees in which nothing is computed, `Build.Settled`, the
computations that do not look at the scope, and the theorem on compiled plans: no plan is ever to
blame, and a static one is built to the same document in every scope.
-/

namespace TypedMarkup

open Markup

/-! ## Static trees and static plans -/

/-- Nothing in a tree is computed: there are no blocks, and all attributes are literals. -/
structure Markup.Node.Static (node : Node) : Prop where
  blocks : ∀ expression, ¬ Node.Within (.block expression) node
  attributes : ∀ tag children span, Node.Within (.element tag children span) node →
    ∀ found ∈ tag.attributes, ∀ code, found.value ≠ .expression code

/-- All that is set at the start of an element is written there. -/
structure TagPlan.Static (plan : TagPlan) : Prop where
  attributes : ∀ setting ∈ plan.attributes, ∃ written value, setting.source = .literal written value
  data : ∀ entry ∈ plan.data, ∃ written, entry.source = .literal written
  events : ∀ handled ∈ plan.events, ∃ written, handled.source = .literal written

/-- Nothing in a plan is computed. -/
inductive NodePlan.Static : NodePlan → Prop where
  | text (value : String) (span : Span) : Static (.text value span)
  | element {head : TagPlan} {required optional : List NodePlan} (start : head.Static)
      (requiredStatic : ∀ child ∈ required, Static child)
      (optionalStatic : ∀ child ∈ optional, Static child) :
      Static (.element head required optional)

theorem Markup.Node.Static.child {tag : Tag} {children : List Node} {span : Span} {child : Node}
    (static : Node.Static (.element tag children span)) (member : child ∈ children) :
    child.Static := by
  refine ⟨?_, ?_⟩
  · intro expression inside
    exact static.blocks expression (.deeper member inside)
  · intro childTag below childSpan inside
    exact static.attributes childTag below childSpan (.deeper member inside)

/-- Nothing in the parts of a checked element is computed if nothing in its tree is. -/
theorem Checked.static_parts {head : CheckedTag} {required optional : List Checked}
    (static : (Checked.element head required optional).erase.Static) :
    (∀ found ∈ head.tag.attributes, ∀ code, found.value ≠ .expression code) ∧
      (∀ part ∈ required, part.erase.Static) ∧ ∀ part ∈ optional, part.erase.Static := by
  rw [Checked.erase, Checked.eraseAll_eq_map, Checked.eraseAll_eq_map] at static
  refine ⟨static.attributes _ _ _ (.self _), ?_, ?_⟩
  · intro part member
    exact static.child (List.mem_append_left _ (List.mem_map_of_mem member))
  · intro part member
    exact static.child (List.mem_append_right _ (List.mem_map_of_mem member))

def AttributeValue.isLiteral : AttributeValue → Bool
  | literal _ _ _ _ => true
  | expression _ => false

theorem AttributeValue.isLiteral_iff {value : AttributeValue} :
    value.isLiteral = true ↔ ∀ code, value ≠ .expression code := by
  cases value with
  | literal | expression => simp [isLiteral]

mutual

/-- Whether nothing in a tree is computed. -/
def Markup.Node.isStatic : Node → Bool
  | .element tag children _ =>
    tag.attributes.all (fun found => found.value.isLiteral) && allStatic children
  | .text _ _ => true
  | .block _ => false

/-- Whether nothing in any of the trees is computed. -/
def allStatic : List Node → Bool
  | [] => true
  | child :: rest => child.isStatic && allStatic rest

end

mutual

theorem Markup.Node.static_of_isStatic (node : Node) (decided : node.isStatic = true) :
    node.Static := by
  cases node with
  | element tag children span =>
    rw [Node.isStatic, Bool.and_eq_true, List.all_eq_true] at decided
    have childrenStatic := static_of_allStatic children decided.2
    refine ⟨?_, ?_⟩
    · intro expression inside
      cases inside with
      | deeper member inside => exact (childrenStatic _ member).blocks expression inside
    · intro otherTag below otherSpan inside
      cases inside with
      | self =>
        intro found member
        exact AttributeValue.isLiteral_iff.mp (decided.1 found member)
      | deeper member inside =>
        exact (childrenStatic _ member).attributes otherTag below otherSpan inside
  | text value span =>
    exact ⟨fun _ inside => (nomatch inside), fun _ _ _ inside => (nomatch inside)⟩
  | block expression => cases decided

theorem static_of_allStatic (children : List Node) (decided : allStatic children = true) :
    ∀ child ∈ children, child.Static := by
  cases children with
  | nil => exact List.forall_mem_nil _
  | cons child rest =>
    rw [allStatic, Bool.and_eq_true] at decided
    exact List.forall_mem_cons.mpr
      ⟨child.static_of_isStatic decided.1, static_of_allStatic rest decided.2⟩

end

namespace Draft

section

variable {registry : Registry} {output : Option OutputType} {source : String}

theorem planAttribute_static {element : String} {typed : TypedAttribute} {plan : AttributePlan}
    (literal : ∀ code, typed.written.value ≠ .expression code)
    (planned : planAttribute source element typed = .ok plan) :
    ∃ written value, plan.source = .literal written value := by
  unfold planAttribute at planned
  split at planned
  · next code isExpression => exact absurd isExpression (literal code)
  · split at planned
    · cases planned
      exact ⟨_, _, rfl⟩
    · cases planned

theorem planData_static {entry : String × Markup.Attribute}
    (literal : ∀ code, entry.2.value ≠ .expression code) :
    ∃ written, (planData entry).source = .literal written := by
  unfold planData
  split
  · exact ⟨_, rfl⟩
  · next code isExpression => exact absurd isExpression (literal code)

theorem planEvent_static {element : String} {entry : String × Markup.Attribute} {plan : EventPlan}
    (literal : ∀ code, entry.2.value ≠ .expression code)
    (planned : planEvent output source element entry = .ok plan) :
    ∃ written, plan.source = .literal written := by
  unfold planEvent at planned
  split at planned
  · cases planned
  · split at planned
    · next code isExpression => exact absurd isExpression (literal code)
    · split at planned
      · cases planned
        exact ⟨_, rfl⟩
      · cases planned

theorem planTag_static {head : CheckedTag} {plan : TagPlan}
    (divided : head.buckets.Divides head.schema head.tag.attributes)
    (literal : ∀ found ∈ head.tag.attributes, ∀ code, found.value ≠ .expression code)
    (planned : planTag output source head = .ok plan) : plan.Static := by
  obtain ⟨attributes, events, attributesPlanned, eventsPlanned, rfl⟩ := planTag_eq_ok planned
  refine ⟨?_, ?_, ?_⟩
  · intro setting member
    obtain ⟨typed, inBucket, typedPlanned⟩ :=
      exists_left_of_mem (mapM_eq_ok.mp attributesPlanned) member
    have written := divided.typedOrder.subset (List.mem_map_of_mem inBucket)
    exact planAttribute_static (literal typed.written written) typedPlanned
  · intro entry member
    obtain ⟨found, inBucket, rfl⟩ := List.mem_map.mp member
    have written := divided.dataOrder.subset (List.mem_map_of_mem inBucket)
    exact planData_static (literal found.2 written)
  · intro handled member
    obtain ⟨found, inBucket, foundPlanned⟩ :=
      exists_left_of_mem (mapM_eq_ok.mp eventsPlanned) member
    have written := divided.eventOrder.subset (List.mem_map_of_mem inBucket)
    exact planEvent_static (literal found.2 written) foundPlanned

theorem planNode_static {checked : Checked} (fits : checked.Fits registry)
    (static : checked.erase.Static) {parent : Option CheckedTag} {plan : NodePlan}
    (planned : planNode output source parent checked = .ok plan) : plan.Static := by
  induction fits generalizing parent plan with
  | text value span =>
    cases planned
    exact .text value span
  | block expression => exact absurd (.self _) (static.blocks expression)
  | @element head required optional _ _ _ divided _ _ requiredHypothesis optionalHypothesis =>
    obtain ⟨start, requiredPlans, optionalPlans, started, requiredPlanned, optionalPlanned,
      rfl⟩ := planNode_element_eq_ok.mp planned
    obtain ⟨literal, staticRequired, staticOptional⟩ := Checked.static_parts static
    refine .element (planTag_static divided literal started) ?_ ?_
    · intro child member
      obtain ⟨part, partMember, partPlanned⟩ :=
        exists_left_of_mem (mapM_eq_ok.mp requiredPlanned) member
      exact requiredHypothesis part partMember (staticRequired part partMember) partPlanned
    · intro child member
      obtain ⟨part, partMember, partPlanned⟩ :=
        exists_left_of_mem (mapM_eq_ok.mp optionalPlanned) member
      exact optionalHypothesis part partMember (staticOptional part partMember) partPlanned

end

end Draft

/-! ## Computations that do not look at the scope -/

namespace Build

/-- The answer of a computation is the same in every scope, and if it is a fault, it is one of the
plan. -/
def Settled {α : Type} (computation : Scope → Except Fault α) : Prop :=
  ∃ answer : Except StructuralFault α, ∀ scope, computation scope = answer.mapError .structural

section

variable {α β : Type}

theorem Settled.ok (value : α) : Settled fun _ => .ok value :=
  ⟨.ok value, fun _ => rfl⟩

theorem Settled.of_blaming {ε : Type} (change : Except ε α) (blame : ε → StructuralFault) :
    Settled fun _ => change.mapError fun refusal => .structural (blame refusal) := by
  refine ⟨change.mapError blame, ?_⟩
  intro scope
  cases change with
  | ok | error => rfl

theorem Settled.structurally (change : Except Refusal α) : Settled fun _ => structurally change :=
  .of_blaming change .refused

theorem Settled.bind {first : Scope → Except Fault α} {next : Scope → α → Except Fault β}
    (settled : Settled first) (further : ∀ value, Settled fun scope => next scope value) :
    Settled fun scope => first scope >>= next scope := by
  obtain ⟨answer, answered⟩ := settled
  cases answer with
  | error fault =>
    refine ⟨.error fault, ?_⟩
    intro scope
    simp only [answered scope]
    rfl
  | ok value =>
    obtain ⟨second, secondAnswered⟩ := further value
    refine ⟨second, ?_⟩
    intro scope
    simp only [answered scope]
    exact secondAnswered scope

theorem Settled.foldlM {step : Scope → α → β → Except Fault α} {items : List β} {start : α}
    (each : ∀ item ∈ items, ∀ before, Settled fun scope => step scope before item) :
    Settled fun scope => items.foldlM (step scope) start := by
  induction items generalizing start with
  | nil => exact .ok start
  | cons item rest ih =>
    simp only [List.foldlM_cons]
    obtain ⟨here, others⟩ := List.forall_mem_cons.mp each
    exact (here start).bind fun _ => ih others

theorem Settled.mapM {step : Scope → β → Except Fault α} {items : List β}
    (each : ∀ item ∈ items, Settled fun scope => step scope item) :
    Settled fun scope => items.mapM (step scope) := by
  induction items with
  | nil => exact .ok []
  | cons item rest ih =>
    simp only [List.mapM_cons]
    obtain ⟨here, others⟩ := List.forall_mem_cons.mp each
    exact here.bind fun first => (ih others).bind fun more => .ok (first :: more)

theorem Settled.succeeds {computation : Scope → Except Fault α} {property : α → Prop}
    (settled : Settled computation) (blameless : ∀ scope, Blameless property (computation scope)) :
    ∃ value, ∀ scope, computation scope = .ok value := by
  obtain ⟨answer, answered⟩ := settled
  cases answer with
  | ok value => exact ⟨value, answered⟩
  | error fault => exact absurd (answered ⟨[]⟩) ((blameless ⟨[]⟩).not_structural fault)

end

/-! ## Building static plans -/

section

variable {output : Option OutputType} {element : Element}

theorem setAttribute_settled {plan : AttributePlan}
    (static : ∃ written value, plan.source = .literal written value) :
    Settled fun scope => setAttribute scope element plan := by
  obtain ⟨written, value, literal⟩ := static
  simp only [setAttribute, literal]
  exact .structurally _

theorem setData_settled (element : Element) {plan : DataPlan}
    (static : ∃ written, plan.source = .literal written) :
    ∃ changed, ∀ scope, setData scope element plan = .ok changed := by
  obtain ⟨written, literal⟩ := static
  refine ⟨element.setData plan.name written, ?_⟩
  intro scope
  rw [setData, literal]

theorem setAllData_settled (element : Element) {plans : List DataPlan}
    (static : ∀ plan ∈ plans, ∃ written, plan.source = .literal written) :
    ∃ changed, ∀ scope, plans.foldlM (setData scope) element = .ok changed := by
  induction plans generalizing element with
  | nil => exact ⟨element, fun _ => rfl⟩
  | cons plan rest ih =>
    obtain ⟨here, further⟩ := List.forall_mem_cons.mp static
    obtain ⟨first, set⟩ := setData_settled element here
    obtain ⟨last, run⟩ := ih first further
    refine ⟨last, ?_⟩
    intro scope
    rw [List.foldlM_cons, bind_eq_ok]
    exact ⟨first, set scope, run scope⟩

theorem setHandler_settled {plan : EventPlan} (static : ∃ written, plan.source = .literal written) :
    Settled fun scope => setHandler output scope element plan := by
  obtain ⟨written, literal⟩ := static
  simp only [setHandler, handlerValue, literal]
  apply (Settled.ok (Value.text written)).bind
  intro value
  cases output with
  | none => exact ⟨.error .outputMissing, fun _ => rfl⟩
  | some target =>
    have fault : handlerFault element.schema.name plan = fun refusal =>
        .structural (.writtenHandler plan.event element.schema.name refusal plan.span) := by
      funext refusal
      rw [handlerFault, literal]
    simp only [fault]
    apply (Settled.of_blaming _ _).bind
    intro handler
    exact .ok (element.setHandler handler)

theorem startElement_settled {plan : TagPlan} (static : plan.Static) :
    Settled fun scope => startElement output scope plan := by
  simp only [startElement]
  apply (Settled.foldlM fun setting member before =>
    setAttribute_settled (static.attributes setting member)).bind
  intro attributed
  obtain ⟨annotated, annotates⟩ := setAllData_settled attributed static.data
  simp only [annotates]
  apply (Settled.ok annotated).bind
  intro started
  exact .foldlM fun handled member before => setHandler_settled (static.events handled member)

theorem setRequired_settled {children : List Document.Node} :
    Settled fun _ => setRequired element children := by
  unfold setRequired
  split
  · exact .ok element
  · exact .structurally _

theorem written_of_static {plan : NodePlan} (static : plan.Static) (block : BlockPlan) :
    plan ≠ .block block := by
  rintro rfl
  cases static

theorem appendOptional_settled {plans : List NodePlan}
    (static : ∀ plan ∈ plans, plan.Static)
    (each : ∀ plan ∈ plans, Settled fun scope => buildNode output scope plan) :
    Settled fun scope => appendOptional output scope element plans := by
  simp only [appendOptional_eq_foldlM]
  refine .foldlM fun plan member before => ?_
  simp only [appendChild_written (written_of_static (static plan member))]
  exact (each plan member).bind fun _ => .structurally _

theorem buildNode_settled {plan : NodePlan} (static : plan.Static) :
    Settled fun scope => buildNode output scope plan := by
  induction static with
  | text value span =>
    simp only [buildNode]
    exact .ok (Document.Node.text value)
  | @element head required optional start _ optionalStatic requiredHypothesis
      optionalHypothesis =>
      simp only [buildNode, buildRequired_eq_mapM]
      apply (startElement_settled start).bind
      intro started
      apply (Settled.mapM requiredHypothesis).bind
      intro children
      apply setRequired_settled.bind
      intro bound
      apply (appendOptional_settled optionalStatic optionalHypothesis).bind
      intro finished
      exact .ok (Document.Node.element finished)

end

end Build

/-! ## Compiled plans -/

/-- Building a compiled plan never fails for a reason that could have been seen in the unit: the
elements take every attribute, handler and written child that the plan gives them. Where nothing is
computed there is no other reason to fail, so there is one document for all scopes. -/
theorem compiled_plan_is_never_to_blame {source : String} {registry : Registry}
    {requested : Option String} {plan : Plan}
    (compiled : compile source registry requested = .ok plan) :
    (∀ scope fault, Build.buildNode plan.output scope plan.root ≠ .error (.structural fault)) ∧
      ∀ unit, Markup.parse source = .ok unit → unit.root.Static →
        ∃ node, ∀ scope, plan.build scope = .ok node := by
  have blameless : ∀ scope, Build.Blameless plan.root.Describes
      (Build.buildNode plan.output scope plan.root) :=
    fun _ => Build.buildNode_blameless (compile_fits compiled)
  refine ⟨fun scope => (blameless scope).not_structural, ?_⟩
  intro unit parsed static
  obtain ⟨_, checked, output, ownParsed, accepted, -, root, planned, rfl⟩ :=
    compile_eq_ok.mp compiled
  cases ownParsed.symm.trans parsed
  obtain ⟨same, fits⟩ := checkNode_sound unit.root checked accepted
  have staticPlan := Draft.planNode_static fits (same ▸ static) planned
  obtain ⟨node, built⟩ := (Build.buildNode_settled staticPlan).succeeds blameless
  refine ⟨node, ?_⟩
  intro scope
  rw [Plan.build, built scope]
  rfl

/-- A document with required children, attributes of all three kinds and text to be escaped. -/
def writtenDocument : String :=
  "<html><head><title>\"<&\"</title></head>" ++
    "<body class=\"a b\" data-k=\"1\" onload=\"go(1<2)\">\"t\"</body></html>"

theorem writtenDocument_builds :
    ∃ registry plan,
      Registry.ofDeclarations (Html.structureElements ++ Html.metadataElements) = .ok registry ∧
        compile writtenDocument registry (some "String") = .ok plan ∧
        (∀ scope fault, Build.buildNode plan.output scope plan.root ≠ .error (.structural fault)) ∧
        ∃ node, ∀ scope, plan.build scope = .ok node := by
  have compiles : yields (fun registry =>
      yields (fun _ => true) (compile writtenDocument registry (some "String")))
      (Registry.ofDeclarations (Html.structureElements ++ Html.metadataElements)) = true := by
    decide +kernel
  have parses : yields (fun unit => unit.root.isStatic) (Markup.parse writtenDocument) = true := by
    decide +kernel
  obtain ⟨registry, declared, compilesThere⟩ := exists_of_yields compiles
  obtain ⟨plan, compiled, -⟩ := exists_of_yields compilesThere
  obtain ⟨unit, parsed, static⟩ := exists_of_yields parses
  have result := compiled_plan_is_never_to_blame compiled
  exact ⟨registry, plan, declared, compiled, result.1,
    result.2 unit parsed (unit.root.static_of_isStatic static)⟩

end TypedMarkup
