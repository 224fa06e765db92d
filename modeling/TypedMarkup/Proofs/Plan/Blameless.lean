import TypedMarkup.Proofs.Document.Changes
import TypedMarkup.Proofs.Document.Validity
import TypedMarkup.Proofs.Plan.Fits
import TypedMarkup.Proofs.Table

/-!
Contract: a plan that fits is never to blame.

Owns: `Build.Blameless`, the computations that end in a value with a property or in a failure that a
value brought about, and the proof that every step of building a plan that fits is such a
computation. The invariant of an element in the making is `Schema.Shapes`: it has its schema and a
slot for each attribute of the schema.
-/

namespace TypedMarkup

/-- An element in the making has its schema, and a slot for each attribute of it. -/
structure Schema.Shapes (schema : Schema) (element : Element) : Prop where
  sameSchema : element.schema = schema
  sameNames : Table.names element.slots = Table.names schema.attributes

theorem NodePlan.block_or_written (plan : NodePlan) :
    (∃ block, plan = .block block) ∨ ∀ block, plan ≠ .block block := by
  cases plan <;> simp

/-- A node is of the kind that a plan says: an element of its schema, or a text. -/
def NodePlan.Describes : NodePlan → Document.Node → Prop
  | element head _ _, node => ∃ element, node = .element element ∧ element.schema = head.schema
  | text value _, node => node = .text value
  | block _, _ => True

namespace Build

/-- A computation ends in a value with a property, or in a failure that is not one of the plan. -/
def Blameless {α : Type} (property : α → Prop) : Except Fault α → Prop
  | .ok value => property value
  | .error (.failed _) => True
  | .error (.structural _) => False

section

variable {α β : Type} {property : α → Prop}

theorem Blameless.bind {further : β → Prop} {step : Except Fault α} {next : α → Except Fault β}
    (first : Blameless property step)
    (second : ∀ value, property value → Blameless further (next value)) :
    Blameless further (step >>= next) := by
  cases step with
  | ok value => exact second value first
  | error fault =>
    cases fault with
    | failed failure => trivial
    | structural fault => exact absurd first id

theorem Blameless.of_ok {step : Except Fault α} {value : α} (stepped : step = .ok value)
    (holds : property value) : Blameless property step := by
  rw [stepped]
  exact holds

/-- What only values can make fail is blameless, whatever comes of it. -/
theorem Blameless.of_failing {ε : Type} {step : Except ε α} {blame : ε → Failure}
    (holds : ∀ value, step = .ok value → property value) :
    Blameless property (step.mapError fun failure => .failed (blame failure)) := by
  cases step with
  | ok value => exact holds value rfl
  | error failure => trivial

theorem Blameless.of_any_failing {ε : Type} {step : Except ε α} {blame : ε → Failure} :
    Blameless (fun _ => True) (step.mapError fun failure => .failed (blame failure)) :=
  .of_failing fun _ _ => trivial

theorem Blameless.structurally {change : Except Refusal α} {value : α}
    (changed : change = .ok value) (holds : property value) :
    Blameless property (structurally change) := by
  rw [changed]
  exact holds

theorem Blameless.of_eq_ok {step : Except Fault α} {value : α}
    (blameless : Blameless property step) (stepped : step = .ok value) : property value := by
  rw [stepped] at blameless
  exact blameless

theorem Blameless.not_structural {step : Except Fault α} (blameless : Blameless property step)
    (fault : StructuralFault) : step ≠ .error (.structural fault) := by
  rintro rfl
  exact blameless

/-- What every step keeps without blame, a whole run keeps without blame. -/
theorem Blameless.foldlM {step : α → β → Except Fault α} {items : List β} {start : α}
    (holds : property start)
    (stepKeeps : ∀ item ∈ items, ∀ before, property before →
      Blameless property (step before item)) :
    Blameless property (items.foldlM step start) := by
  induction items generalizing start with
  | nil => exact holds
  | cons item rest ih =>
    rw [List.foldlM_cons]
    obtain ⟨here, others⟩ := List.forall_mem_cons.mp stepKeeps
    exact (here start holds).bind fun _ kept => ih kept others

/-- A list of blameless computations, whose results stand where their items stood. -/
theorem Blameless.mapM {related : β → α → Prop} {step : β → Except Fault α} {items : List β}
    (each : ∀ item ∈ items, Blameless (related item) (step item)) :
    Blameless (List.Forall₂ related items) (items.mapM step) := by
  induction items with
  | nil => exact .nil
  | cons item rest ih =>
    rw [List.mapM_cons]
    obtain ⟨here, others⟩ := List.forall_mem_cons.mp each
    exact here.bind fun _ first => (ih others).bind fun _ more => .cons first more

end

/-! ## Elements in the making -/

section

variable {schema : Schema} {element : Element} {scope : Scope} {output : Option OutputType}

section

variable {plan : AttributePlan} {changed : Element} {extended : Element}

theorem shapes_ofSchema (schema : Schema) (output : Option OutputType) :
    schema.Shapes (.ofSchema schema output) := by
  refine ⟨rfl, ?_⟩
  rw [Document.ElementOf.ofSchema, Table.names, Table.names, List.map_map]
  rfl

theorem setAttribute_of_attributeType? {name : String} {type : AttributeType}
    (shapes : schema.Shapes element) (typed : schema.attributeType? name = some type)
    (value : Value) :
    ∃ changed, element.setAttribute name value = .ok changed ∧ schema.Shapes changed := by
  have present : keyOf name ∈ Table.names element.slots := by
    rw [shapes.sameNames]
    exact List.mem_map_of_mem (Table.mem_of_get? typed)
  refine ⟨_, Document.setAttribute_eq_ok.mpr ⟨Table.has_iff_mem_names.mpr present, rfl⟩,
    shapes.sameSchema, ?_⟩
  rw [Table.names_put present, shapes.sameNames]

theorem setAttribute_blameless (fits : plan.Fits schema) (shapes : schema.Shapes element) :
    Blameless schema.Shapes (setAttribute scope element plan) := by
  obtain ⟨type, typed, -⟩ := fits
  have settable : ∀ value, Blameless schema.Shapes
      (structurally (element.setAttribute plan.name value)) := by
    intro value
    obtain ⟨changed, set, kept⟩ := setAttribute_of_attributeType? shapes typed value
    exact .structurally set kept
  have typeFound : element.attributeType plan.name = .ok type := by
    rw [Document.ElementOf.attributeType, shapes.sameSchema, typed]
  unfold setAttribute
  split
  · exact settable _
  · apply Blameless.of_any_failing.bind
    intro found _
    apply (Blameless.structurally typeFound (Eq.refl type)).bind
    intro _ _
    apply Blameless.of_any_failing.bind
    intro fitted _
    exact settable fitted

/-- Written or computed, an attribute is set to some value. -/
theorem setAttribute_eq_ok (set : setAttribute scope element plan = .ok changed) :
    ∃ value, element.setAttribute plan.name value = .ok changed := by
  unfold setAttribute at set
  split at set
  · exact ⟨_, mapError_eq_ok.mp set⟩
  · obtain ⟨_, _, behindValue⟩ := bind_eq_ok.mp set
    obtain ⟨_, _, behindType⟩ := bind_eq_ok.mp behindValue
    obtain ⟨fitted, _, assigned⟩ := bind_eq_ok.mp behindType
    exact ⟨fitted, mapError_eq_ok.mp assigned⟩

/-- Written or computed, a data attribute is set to some text. -/
theorem setData_eq_ok {plan : DataPlan} (set : setData scope element plan = .ok changed) :
    ∃ value, changed = element.setData plan.name value := by
  unfold setData at set
  split at set
  · cases set
    exact ⟨_, rfl⟩
  · obtain ⟨found, _, behind⟩ := bind_eq_ok.mp set
    obtain ⟨shown, _, same⟩ := bind_eq_ok.mp behind
    exact ⟨shown, (pure_eq_ok.mp same).symm⟩

/-- Written or computed, a handler is set for its event once it has been bound. -/
theorem setHandler_eq_ok {plan : EventPlan}
    (set : setHandler output scope element plan = .ok changed) :
    ∃ target value handler, Document.bindHandler target plan.event value = .ok handler ∧
      changed = element.setHandler handler := by
  obtain ⟨value, _, behindValue⟩ := bind_eq_ok.mp set
  split at behindValue
  · cases behindValue
  · obtain ⟨handler, bound, same⟩ := bind_eq_ok.mp behindValue
    exact ⟨_, value, handler, mapError_eq_ok.mp bound, (pure_eq_ok.mp same).symm⟩

/-- A written handler is taken, since it was when the plan was made; a computed one may fail. -/
theorem setHandler_blameless {plan : EventPlan} (fits : plan.Fits output)
    (shapes : schema.Shapes element) :
    Blameless schema.Shapes (setHandler output scope element plan) := by
  obtain ⟨target, rfl, taken⟩ := fits
  have kept : ∀ handler, schema.Shapes (element.setHandler handler) :=
    fun _ => ⟨shapes.sameSchema, shapes.sameNames⟩
  unfold setHandler
  cases written : plan.source with
  | literal text =>
    have bound : Document.bindHandler target plan.event (.text text) =
        .ok ⟨plan.event, .text text, target⟩ := by
      rw [Document.bindHandler, taken text written]
      rfl
    apply (Blameless.of_ok rfl (Eq.refl (Value.text text))).bind
    rintro _ rfl
    simp only [bound]
    exact kept _
  | expression code =>
    apply Blameless.of_any_failing.bind
    intro value _
    -- The handler comes from an expression, so its kind is not the fault of the plan.
    have fault : handlerFault element.schema.name plan = fun refusal =>
        .failed (handlerFailure plan.event element.schema.name refusal plan.span) := by
      funext refusal
      rw [handlerFault, written]
    simp only [fault]
    apply Blameless.of_any_failing.bind
    intro handler _
    exact kept handler

theorem startElement_blameless {registry : Registry} {plan : TagPlan}
    (fits : plan.Fits registry output) :
    Blameless plan.schema.Shapes (startElement output scope plan) := by
  unfold startElement
  apply (Blameless.foldlM (shapes_ofSchema plan.schema output) ?_).bind
  · intro attributed shapesAttributed
    apply (Blameless.of_failing ?_).bind
    · intro annotated shapesAnnotated
      apply Blameless.foldlM shapesAnnotated
      intro handled member before shapes
      exact setHandler_blameless (fits.events handled member) shapes
    · intro annotated run
      apply foldlM_keeps plan.schema.Shapes _ run shapesAttributed
      intro entry _ before after set shapes
      obtain ⟨value, rfl⟩ := setData_eq_ok set
      exact ⟨shapes.sameSchema, shapes.sameNames⟩
  · intro setting member before shapes
    exact setAttribute_blameless (fits.attributes setting member) shapes

/-- Children by the names that the schema lists are taken as the required ones. -/
theorem setRequired_blameless {children : List Document.Node}
    (named : children.map Document.Node.requiredName = schema.required)
    (shapes : schema.Shapes element) :
    Blameless schema.Shapes (setRequired element children) := by
  unfold setRequired
  split
  · exact shapes
  · have found :
        (children.map Value.node).map Document.requiredNameOf = element.schema.required := by
      rw [List.map_map, shapes.sameSchema, ← named]
      rfl
    exact .structurally (Document.setRequired_eq_ok.mpr ⟨found, rfl⟩)
      ⟨shapes.sameSchema, shapes.sameNames⟩

/-- What adding each node keeps, adding all nodes that are still to come keeps. -/
theorem appendPending_keeps (kept : Element → Prop) (sound : Pending → Prop) {span : Span}
    {fuel : Nat} {pending : Pending}
    (stepKeeps : ∀ before node rest, sound before → before.next span = .ok (some (node, rest)) →
      sound rest ∧ ∀ shorter longer : Element,
        shorter.append (.node node) = .ok longer → kept shorter → kept longer)
    (pendingSound : sound pending)
    (appended : appendPending span fuel element pending = .ok extended) (holds : kept element) :
    kept extended := by
  induction fuel generalizing element pending with
  | zero =>
    cases appended
  | succ fuel ih =>
    rw [appendPending] at appended
    split at appended
    · cases appended
    · cases appended
      exact holds
    · next node rest taken =>
      obtain ⟨restSound, nodeKept⟩ := stepKeeps pending node rest pendingSound taken
      split at appended
      · next added =>
        exact ih restSound appended (nodeKept _ _ added holds)
      · cases appended

theorem appendBlock_keeps {block : BlockPlan}
    (appended : appendBlock scope element block = .ok extended) (shapes : schema.Shapes element) :
    schema.Shapes extended := by
  unfold appendBlock at appended
  obtain ⟨found, _, behindValue⟩ := bind_eq_ok.mp appended
  obtain ⟨pending, _, run⟩ := bind_eq_ok.mp behindValue
  refine appendPending_keeps schema.Shapes (fun _ => True) ?_ trivial run shapes
  intro before node rest _ _
  refine ⟨trivial, ?_⟩
  intro shorter longer added shapesShorter
  obtain ⟨_, _, _, rfl⟩ := Document.append_eq_ok.mp added
  exact ⟨shapesShorter.sameSchema, shapesShorter.sameNames⟩

end

/-- A node of the kind that an accepted plan says can be added. -/
theorem append_of_describes {constraint : String} {plan : NodePlan} {node : Document.Node}
    (describes : plan.Describes node) (written : ∀ block, plan ≠ .block block)
    (accepted : plan.AcceptedBy constraint) (present : schema.constraint = some constraint)
    (shapes : schema.Shapes element) :
    ∃ extended, element.append (.node node) = .ok extended ∧ schema.Shapes extended := by
  have member : constraint ∈ node.tags := by
    cases plan with
    | element head required optional =>
      obtain ⟨built, rfl, same⟩ := describes
      rw [Document.Node.tags, same]
      exact accepted
    | text value span =>
      cases describes
      exact accepted
    | block block => exact absurd rfl (written block)
  have constrained : element.schema.constraint = some constraint := by
    rw [shapes.sameSchema, present]
  exact ⟨_, Document.append_eq_ok.mpr ⟨constraint, constrained, member, rfl⟩, shapes.sameSchema,
    shapes.sameNames⟩

end

/-! ## Nodes -/

section

variable {registry : Registry} {output : Option OutputType} {scope : Scope} {element : Element}
  {plan : NodePlan} {plans : List NodePlan} {names : List String} {nodes : List Document.Node}

theorem buildRequired_eq_mapM (plans : List NodePlan) :
    buildRequired output scope plans = plans.mapM (buildNode output scope) := by
  induction plans with
  | nil => rfl
  | cons plan rest ih =>
    rw [buildRequired, List.mapM_cons, ih]

/-- An element is begun and gets its required children, which are built by then, and its optional
ones, which are built one by one. -/
theorem buildNode_element_eq_ok {head : TagPlan} {required optional : List NodePlan}
    {node : Document.Node}
    (built : buildNode output scope (.element head required optional) = .ok node) :
    ∃ started children bound finished, startElement output scope head = .ok started ∧
      required.mapM (buildNode output scope) = .ok children ∧
      setRequired started children = .ok bound ∧
      appendOptional output scope bound optional = .ok finished ∧ node = .element finished := by
  rw [buildNode, buildRequired_eq_mapM] at built
  obtain ⟨started, began, behindStart⟩ := bind_eq_ok.mp built
  obtain ⟨children, childrenBuilt, behindChildren⟩ := bind_eq_ok.mp behindStart
  obtain ⟨bound, boundSet, behindBound⟩ := bind_eq_ok.mp behindChildren
  obtain ⟨finished, appended, same⟩ := bind_eq_ok.mp behindBound
  exact ⟨started, children, bound, finished, began, childrenBuilt, boundSet, appended,
    (pure_eq_ok.mp same).symm⟩

/-- Adds one optional child: what a block yields, or what is built for a child. -/
def appendChild (output : Option OutputType) (scope : Scope) (element : Element) :
    NodePlan → Except Fault Element
  | .block block => (appendBlock scope element block).mapError .failed
  | child => do structurally (element.append (.node (← buildNode output scope child)))

theorem appendChild_written (written : ∀ block, plan ≠ .block block) :
    appendChild output scope element plan = (buildNode output scope plan >>= fun node =>
      structurally (element.append (.node node))) := by
  cases plan with
  | block block => exact absurd rfl (written block)
  | _ => rfl

theorem appendOptional_eq_foldlM (element : Element) (plans : List NodePlan) :
    appendOptional output scope element plans =
      plans.foldlM (appendChild output scope) element := by
  induction plans generalizing element with
  | nil => rfl
  | cons plan rest ih =>
    rw [List.foldlM_cons]
    rcases plan.block_or_written with ⟨block, rfl⟩ | written
    · rw [appendOptional]
      exact bind_congr ih
    · rw [appendOptional, appendChild_written written, bind_assoc]
      · exact bind_congr fun node => bind_congr ih
      · exact written

theorem schemaNames_of_describes (described : List.Forall₂ NodePlan.Describes plans nodes)
    (named : plans.map NodePlan.schemaName? = names.map some) :
    nodes.map Document.Node.schemaName? = names.map some := by
  induction described generalizing names with
  | nil => exact named
  | @cons plan node _ _ here _ ih =>
    cases names with
    | nil => cases named
    | cons name others =>
      rw [List.map_cons, List.map_cons, List.cons.injEq] at named
      obtain ⟨first, further⟩ := named
      cases plan with
      | element head required optional =>
        obtain ⟨built, rfl, same⟩ := here
        rw [List.map_cons, List.map_cons, ih further, ← first,
          Document.Node.schemaName?, NodePlan.schemaName?, same]
      | text | block => cases first

theorem requiredNames_of_schemaNames
    (named : nodes.map Document.Node.schemaName? = names.map some) :
    nodes.map Document.Node.requiredName = names := by
  induction nodes generalizing names with
  | nil => exact (List.map_eq_nil_iff.mp named.symm).symm
  | cons node rest ih =>
    cases names with
    | nil => cases named
    | cons name others =>
      rw [List.map_cons, List.map_cons, List.cons.injEq] at named
      cases node with
      | element found =>
        rw [List.map_cons, ih named.2]
        exact congrArg (· :: others) (Option.some.inj named.1)
      | text | verbatim | foreign => cases named.1

/-- Building the optional children, where each of them is built without blame. -/
theorem appendOptional_blameless {schema : Schema}
    (each : ∀ plan ∈ plans, Blameless plan.Describes (buildNode output scope plan))
    (accepted : ∀ plan ∈ plans, ∃ constraint, schema.constraint = some constraint ∧
      plan.AcceptedBy constraint) (shapes : schema.Shapes element) :
    Blameless schema.Shapes (appendOptional output scope element plans) := by
  rw [appendOptional_eq_foldlM]
  refine .foldlM shapes fun plan member before shapesBefore => ?_
  obtain ⟨constraint, present, acceptedHere⟩ := accepted plan member
  rcases plan.block_or_written with ⟨block, rfl⟩ | written
  · exact .of_failing fun extended appended => appendBlock_keeps appended shapesBefore
  · rw [appendChild_written written]
    refine (each plan member).bind fun node describes => ?_
    obtain ⟨extended, appended, kept⟩ :=
      append_of_describes describes written acceptedHere present shapesBefore
    exact .structurally appended kept

/-- A plan that fits is built without blame, to a node of the kind that it says. -/
theorem buildNode_blameless (fits : plan.Fits registry output) :
    Blameless plan.Describes (buildNode output scope plan) := by
  induction fits with
  | text value span =>
    rw [buildNode]
    exact rfl
  | block block =>
    rw [buildNode]
    apply Blameless.of_any_failing.bind
    intro found _
    exact .of_any_failing
  | @element head required optional start names accepted _ _ requiredHypothesis
      optionalHypothesis =>
      rw [buildNode, buildRequired_eq_mapM]
      apply (startElement_blameless start).bind
      intro started shapesStarted
      apply (Blameless.mapM requiredHypothesis).bind
      intro children described
      have named := requiredNames_of_schemaNames (schemaNames_of_describes described names)
      apply (setRequired_blameless named shapesStarted).bind
      intro bound shapesBound
      apply (appendOptional_blameless optionalHypothesis accepted shapesBound).bind
      intro finished shapesFinished
      exact ⟨finished, rfl, shapesFinished.sameSchema⟩

end

end Build

end TypedMarkup
