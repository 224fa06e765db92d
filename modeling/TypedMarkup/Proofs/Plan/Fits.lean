import TypedMarkup.Compile
import TypedMarkup.Proofs.Markup.Conformance

/-!
Contract: what is known of a plan before anything is built.

Owns: `NodePlan.Fits`, the rules of the schemas as a plan keeps them, and the theorem that every
compiled plan fits. Checking, reading literals and planning establish it together; building starts
from it and never looks at the markup again.
-/

namespace TypedMarkup

variable {parent : Option CheckedTag} {plan : TagPlan} {head : CheckedTag} {checked : Checked}

/-- An attribute of a plan has a type, and a literal has been read by that type. -/
def AttributePlan.Fits (schema : Schema) (plan : AttributePlan) : Prop :=
  ∃ type, schema.attributeType? plan.name = some type ∧
    ∀ written value, plan.source = .literal written value → type.parse written = .ok value

/-- An event of a plan has an output type, which takes the handler if that is written in the
plan. -/
def EventPlan.Fits (output : Option OutputType) (plan : EventPlan) : Prop :=
  ∃ target, output = some target ∧
    ∀ written, plan.source = .literal written →
      Document.checkHandler target (.text written) = .ok ()

/-- The start of an element follows the schema that the registry has by its name. -/
structure TagPlan.Fits (registry : Registry) (output : Option OutputType) (plan : TagPlan) :
    Prop where
  resolved : registry.schema? plan.schema.name = some plan.schema
  attributes : ∀ setting ∈ plan.attributes, setting.Fits plan.schema
  events : ∀ event ∈ plan.events, event.Fits output

namespace NodePlan

def schemaName? : NodePlan → Option String
  | element head _ _ => some head.schema.name
  | _ => none

/-- A constraint accepts what a plan builds. Blocks are accepted item by item when they are
built. -/
def AcceptedBy (constraint : String) : NodePlan → Prop
  | element head _ _ => constraint ∈ head.schema.tags
  | text _ _ => constraint ∈ textTags
  | block _ => True

/-- Every element of a plan has the required children of its schema, and its written children are
accepted. -/
inductive Fits (registry : Registry) (output : Option OutputType) : NodePlan → Prop where
  | text (value : String) (span : Span) : Fits registry output (.text value span)
  | block (block : BlockPlan) : Fits registry output (.block block)
  | element {head : TagPlan} {required optional : List NodePlan}
      (start : head.Fits registry output)
      (names : required.map schemaName? = head.schema.required.map some)
      (accepted : ∀ child ∈ optional, ∃ constraint, head.schema.constraint = some constraint ∧
        child.AcceptedBy constraint)
      (requiredFit : ∀ child ∈ required, Fits registry output child)
      (optionalFit : ∀ child ∈ optional, Fits registry output child) :
      Fits registry output (.element head required optional)

end NodePlan

/-- Changing a text character by character and then again is one change. -/
theorem ofList_map_ofList {first second both : Char → Char}
    (same : ∀ character, second (first character) = both character) (text : String) :
    String.ofList ((String.ofList (text.toList.map first)).toList.map second) =
      String.ofList (text.toList.map both) := by
  rw [String.toList_ofList, List.map_map]
  exact congrArg String.ofList (List.map_congr_left fun character _ => same character)

@[simp] theorem keyOf_keyOf (name : String) : keyOf (keyOf name) = keyOf name := by
  refine ofList_map_ofList ?_ name
  intro character
  split <;> simp_all

theorem Registry.mem_of_schema? {registry : Registry} {name : String} {schema : Schema}
    (found : registry.schema? name = some schema) : schema ∈ registry.schemas :=
  List.mem_of_find?_eq_some found

theorem TagPlan.Fits.known {registry : Registry} {output : Option OutputType}
    (fits : plan.Fits registry output) : plan.schema ∈ registry.schemas :=
  Registry.mem_of_schema? fits.resolved

namespace Draft

section

variable {registry : Registry} {output : Option OutputType} {source : String}

theorem planAttribute_fits {element : String} {schema : Schema} {typed : TypedAttribute}
    {plan : AttributePlan} (declared : typed.Declared schema)
    (planned : planAttribute source element typed = .ok plan) : plan.Fits schema := by
  have typeFound : schema.attributeType? typed.key = some typed.type := by
    have type := declared.type
    rw [declared.key] at type ⊢
    rwa [Schema.attributeType?, keyOf_keyOf]
  unfold planAttribute at planned
  split at planned
  · next code _ =>
    cases planned
    refine ⟨typed.type, typeFound, ?_⟩
    intro written value isLiteral
    cases isLiteral
  · next literal _ _ _ _ =>
    split at planned
    · next parsed read =>
      cases planned
      refine ⟨typed.type, typeFound, ?_⟩
      intro written value isLiteral
      cases isLiteral
      exact read
    · cases planned

theorem planEvent_fits {element : String} {entry : String × Markup.Attribute} {plan : EventPlan}
    (planned : planEvent output source element entry = .ok plan) : plan.Fits output := by
  unfold planEvent at planned
  split at planned
  · cases planned
  · next target =>
    split at planned
    · cases planned
      refine ⟨target, rfl, ?_⟩
      intro written isLiteral
      cases isLiteral
    · next literal _ _ _ _ =>
      split at planned
      · next taken =>
        cases planned
        refine ⟨target, rfl, ?_⟩
        intro written isLiteral
        cases isLiteral
        exact taken
      · cases planned

/-- A start tag is planned attribute by attribute, each kind by itself. -/
theorem planTag_eq_ok (planned : planTag output source head = .ok plan) :
    ∃ attributes events,
      head.buckets.typed.mapM (planAttribute source head.tag.name) = .ok attributes ∧
      head.buckets.events.mapM (planEvent output source head.tag.name) = .ok events ∧
      plan = ⟨head.schema, attributes, head.buckets.data.map planData, events, head.span⟩ := by
  obtain ⟨attributes, attributesPlanned, behindAttributes⟩ := bind_eq_ok.mp planned
  obtain ⟨events, eventsPlanned, same⟩ := bind_eq_ok.mp behindAttributes
  exact ⟨attributes, events, attributesPlanned, eventsPlanned, (pure_eq_ok.mp same).symm⟩

theorem planTag_fits (resolved : registry.schema? (keyOf head.tag.name) = some head.schema)
    (divided : head.buckets.Divides head.schema head.tag.attributes)
    (planned : planTag output source head = .ok plan) :
    plan.Fits registry output := by
  obtain ⟨attributes, events, attributesPlanned, eventsPlanned, rfl⟩ := planTag_eq_ok planned
  refine ⟨?_, ?_, ?_⟩
  · dsimp only
    rw [Registry.name_of_schema? resolved, resolved]
  · intro setting member
    obtain ⟨typed, inBucket, typedPlanned⟩ :=
      exists_left_of_mem (mapM_eq_ok.mp attributesPlanned) member
    exact planAttribute_fits (divided.typed typed inBucket) typedPlanned
  · intro event member
    obtain ⟨entry, _, entryPlanned⟩ := exists_left_of_mem (mapM_eq_ok.mp eventsPlanned) member
    exact planEvent_fits entryPlanned

theorem planAll_eq_mapM (parent : CheckedTag) (children : List Checked) :
    planAll output source parent children =
      children.mapM (planNode output source (some parent)) := by
  induction children with
  | nil => rfl
  | cons child rest ih =>
    rw [planAll, List.mapM_cons, ih]

theorem planNode_element_eq_ok {required optional : List Checked} {plan : NodePlan} :
    planNode output source parent (.element head required optional) = .ok plan ↔
      ∃ start requiredPlans optionalPlans, planTag output source head = .ok start ∧
        required.mapM (planNode output source (some head)) = .ok requiredPlans ∧
        optional.mapM (planNode output source (some head)) = .ok optionalPlans ∧
        plan = .element start requiredPlans optionalPlans := by
  simp only [planNode, planAll_eq_mapM, bind_eq_ok, pure_eq_ok]
  constructor
  · rintro ⟨start, started, requiredPlans, requiredPlanned, optionalPlans, optionalPlanned, same⟩
    exact ⟨start, requiredPlans, optionalPlans, started, requiredPlanned, optionalPlanned,
      same.symm⟩
  · rintro ⟨start, requiredPlans, optionalPlans, started, requiredPlanned, optionalPlanned, same⟩
    exact ⟨start, started, requiredPlans, requiredPlanned, optionalPlans, optionalPlanned,
      same.symm⟩

theorem planTag_schema
    (planned : planTag output source head = .ok plan) : plan.schema = head.schema := by
  obtain ⟨_, _, -, -, rfl⟩ := planTag_eq_ok planned
  rfl

theorem planNode_schemaName? {plan : NodePlan}
    (planned : planNode output source parent checked = .ok plan) :
    plan.schemaName? = checked.schemaName? := by
  cases checked with
  | element head required optional =>
    obtain ⟨start, _, _, started, -, -, rfl⟩ := planNode_element_eq_ok.mp planned
    rw [NodePlan.schemaName?, Checked.schemaName?, planTag_schema started]
  | text | block =>
    cases planned
    rfl

theorem planNode_acceptedBy {plan : NodePlan}
    {constraint : String} (accepted : checked.AcceptedBy constraint)
    (planned : planNode output source parent checked = .ok plan) :
    plan.AcceptedBy constraint := by
  cases checked with
  | element head required optional =>
    obtain ⟨start, _, _, started, -, -, rfl⟩ := planNode_element_eq_ok.mp planned
    rw [NodePlan.AcceptedBy, planTag_schema started]
    exact accepted
  | text value span =>
    cases planned
    exact accepted
  | block expression =>
    cases planned
    trivial

theorem map_schemaName?_of_mapM {children : List Checked} {plans : List NodePlan}
    (planned : children.mapM (planNode output source parent) = .ok plans) :
    plans.map NodePlan.schemaName? = children.map Checked.schemaName? := by
  have matched := mapM_eq_ok.mp planned
  clear planned
  induction matched with
  | nil => rfl
  | cons here _ ih =>
    rw [List.map_cons, List.map_cons, ih, planNode_schemaName? here]

theorem planNode_fits (fits : checked.Fits registry) {plan : NodePlan}
    (planned : planNode output source parent checked = .ok plan) :
    plan.Fits registry output := by
  induction fits generalizing parent plan with
  | text value span =>
    cases planned
    exact .text value span
  | block expression =>
    cases planned
    exact .block _
  | @element head required optional resolved names accepted divided _ _ requiredHypothesis
      optionalHypothesis =>
      obtain ⟨start, requiredPlans, optionalPlans, started, requiredPlanned, optionalPlanned,
        rfl⟩ := planNode_element_eq_ok.mp planned
      have sameSchema := planTag_schema started
      refine .element (planTag_fits resolved divided started) ?_ ?_ ?_ ?_
      · rw [map_schemaName?_of_mapM requiredPlanned, names, sameSchema]
      · intro child member
        obtain ⟨part, partMember, partPlanned⟩ :=
          exists_left_of_mem (mapM_eq_ok.mp optionalPlanned) member
        obtain ⟨constraint, present, partAccepted⟩ := accepted part partMember
        rw [sameSchema]
        exact ⟨constraint, present, planNode_acceptedBy partAccepted partPlanned⟩
      · intro child member
        obtain ⟨part, partMember, partPlanned⟩ :=
          exists_left_of_mem (mapM_eq_ok.mp requiredPlanned) member
        exact requiredHypothesis part partMember partPlanned
      · intro child member
        obtain ⟨part, partMember, partPlanned⟩ :=
          exists_left_of_mem (mapM_eq_ok.mp optionalPlanned) member
        exact optionalHypothesis part partMember partPlanned

end

end Draft

theorem compile_eq_ok {source : String} {registry : Registry} {requested : Option String}
    {plan : Plan} :
    compile source registry requested = .ok plan ↔
      ∃ unit checked output, Markup.parse source = .ok unit ∧
        unit.check registry source = .ok checked ∧
        resolveOutput unit requested source = .ok output ∧
        ∃ root, Draft.planNode output source none checked = .ok root ∧
          plan = ⟨root, output, source⟩ := by
  simp only [compile, compileUnit, Plan.ofChecked, bind_eq_ok, mapError_eq_ok, map_eq_ok]
  constructor
  · rintro ⟨unit, parsed, checked, accepted, output, resolved, root, planned, same⟩
    exact ⟨unit, checked, output, parsed, accepted, resolved, root, planned, same.symm⟩
  · rintro ⟨unit, checked, output, parsed, accepted, resolved, root, planned, same⟩
    exact ⟨unit, parsed, checked, accepted, output, resolved, root, planned, same.symm⟩

theorem compile_fits {source : String} {registry : Registry} {requested : Option String}
    {plan : Plan} (compiled : compile source registry requested = .ok plan) :
    plan.root.Fits registry plan.output := by
  obtain ⟨unit, checked, output, -, accepted, -, root, planned, rfl⟩ := compile_eq_ok.mp compiled
  have fits := (checkNode_sound unit.root checked accepted).2
  exact Draft.planNode_fits fits planned

end TypedMarkup
