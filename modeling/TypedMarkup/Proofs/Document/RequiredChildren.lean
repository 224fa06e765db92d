import Mathlib.Data.List.Forall2
import TypedMarkup.Proofs.Document.Histories

/-!
Contract: which values an element binds as its required children.

Owns: when required children are bound, said without the names that values are compared by; for
which schemas only elements are; and which required children a history of changes can leave.

Whatever is no element is compared as `text`, and elements can have this name too. So where a schema
requires an element `text`, a text takes its place unnoticed, and so does any other value.
-/

namespace TypedMarkup.Document

variable {children : List Value} {name : String}

def IsElementNamed (child : Value) (name : String) : Prop :=
  ∃ element : Element, child = .node (.element element) ∧ element.schema.name = name

/-- A value is bound where an element with a name is required: it is one, or it is no element and
the name is `text`. -/
def PassesFor (child : Value) (name : String) : Prop :=
  IsElementNamed child name ∨ (∀ other, ¬ IsElementNamed child other) ∧ name = "text"

/-! ## One binding -/

section

variable {element changed : Element} {names : List String}

theorem isElementNamed_element {found : Element} :
    IsElementNamed (.node (.element found)) name ↔ found.schema.name = name := by
  constructor
  · rintro ⟨_, same, named⟩
    cases same
    exact named
  · intro named
    exact ⟨found, rfl, named⟩

theorem passesFor_iff {child : Value} :
    PassesFor child name ↔ requiredNameOf child = name := by
  by_cases isElement : ∃ found : Element, child = .node (.element found)
  · obtain ⟨found, rfl⟩ := isElement
    have own : IsElementNamed (.node (.element found)) found.schema.name :=
      isElementNamed_element.mpr rfl
    rw [PassesFor, or_iff_left fun passes => passes.1 _ own, isElementNamed_element]
    rfl
  · have unnamed : ∀ other, ¬ IsElementNamed child other := by
      rintro other ⟨found, same, -⟩
      exact isElement ⟨found, same⟩
    have isText : requiredNameOf child = "text" := by
      cases child with
      | node node =>
        cases node with
        | element found => exact absurd ⟨found, rfl⟩ isElement
        | _ => rfl
      | _ => rfl
    rw [PassesFor, or_iff_right (unnamed name), and_iff_right unnamed, isText, eq_comm]

theorem forall₂_passesFor_iff :
    List.Forall₂ PassesFor children names ↔ children.map requiredNameOf = names := by
  have same : PassesFor = fun child name => requiredNameOf child = name := by
    funext child name
    exact propext passesFor_iff
  rw [same, ← List.forall₂_eq_eq_eq, List.forall₂_map_left_iff]

theorem setRequired_eq_ok_iff_passes :
    element.setRequired children = .ok changed ↔
      List.Forall₂ PassesFor children element.schema.required ∧
        changed = { element with required := children.map bound } := by
  rw [setRequired_eq_ok, forall₂_passesFor_iff]

theorem exists_setRequired_iff :
    (∃ changed, element.setRequired children = .ok changed) ↔
      List.Forall₂ PassesFor children element.schema.required := by
  simp only [setRequired_eq_ok_iff_passes, exists_and_left, exists_eq, and_true]

/-! ## Schemas that take elements only -/

theorem forall₂_isElementNamed_iff (noText : "text" ∉ names) :
    List.Forall₂ IsElementNamed children names ↔ List.Forall₂ PassesFor children names := by
  constructor
  · exact List.Forall₂.imp fun _ _ => .inl
  · intro passes
    induction passes with
    | nil => exact .nil
    | cons here _ ih =>
      obtain ⟨other, further⟩ := not_or.mp (mt List.mem_cons.mpr noText)
      have named := here.resolve_right fun unnamed => other unnamed.2.symm
      exact .cons named (ih further)

/-- A text for each name `text`, and an element for every other name. -/
def disguised (schema : Schema) (name : String) : Value :=
  if name = "text" then .node (.text "")
  else .node (.element (.ofSchema { schema with name := name } none))

theorem disguised_passes (schema : Schema) (name : String) :
    PassesFor (disguised schema name) name := by
  rw [passesFor_iff, disguised]
  split
  · next isText => exact isText.symm
  · rfl

/-- Only elements of the required names are bound just if none of these names is `text`. -/
theorem binds_elements_iff (element : Element) :
    (∀ children, (∃ changed, element.setRequired children = .ok changed) ↔
      List.Forall₂ IsElementNamed children element.schema.required) ↔
      "text" ∉ element.schema.required := by
  simp only [exists_setRequired_iff]
  constructor
  · intro elementsOnly isRequired
    have bound : List.Forall₂ PassesFor (element.schema.required.map (disguised element.schema))
        element.schema.required := by
      rw [List.forall₂_map_left_iff, List.forall₂_same]
      exact fun name _ => disguised_passes element.schema name
    have named := (elementsOnly _).mp bound
    rw [List.forall₂_map_left_iff, List.forall₂_same] at named
    obtain ⟨_, same, -⟩ := named "text" isRequired
    cases same
  · intro noText children
    exact (forall₂_isElementNamed_iff noText).symm

/-! ## Histories -/

theorem passesFor_bound {child : Value} (passes : PassesFor child name) :
    PassesFor (.node (bound child)) name := by
  rw [passesFor_iff] at passes ⊢
  cases child with
  | _ => exact passes

/-- The required children of an element are those that its schema requires, or none have been
bound. -/
structure ElementOf.BoundFor (schema : Schema) (element : Element) : Prop where
  sameSchema : element.schema = schema
  required : element.required = [] ∨
    List.Forall₂ PassesFor (element.required.map Value.node) schema.required

theorem boundFor_next {schema : Schema} (boundFor : element.BoundFor schema)
    (next : element.Next changed) : changed.BoundFor schema := by
  cases next with
  | same => exact boundFor
  | typed set =>
    obtain ⟨-, rfl⟩ := setAttribute_eq_ok.mp set
    exact ⟨boundFor.sameSchema, boundFor.required⟩
  | unchecked | optional => exact ⟨boundFor.sameSchema, boundFor.required⟩
  | required set =>
    obtain ⟨passes, rfl⟩ := setRequired_eq_ok_iff_passes.mp set
    refine ⟨boundFor.sameSchema, .inr ?_⟩
    rw [List.map_map, List.forall₂_map_left_iff, ← boundFor.sameSchema]
    exact passes.imp fun _ _ => passesFor_bound

end

/-- Required children are bound by their names. They are bound just if there are as many as the
schema requires and each is an element of the name in its place, where a value that is no element
passes for an element `text`; nothing but the required children changes then. So only elements of
the required names are ever bound if and only if the schema does not require an element `text`. An
element has such children after any changes, or none have been bound. -/
theorem required_children_are_bound_by_name (element : Element) :
    (∀ children changed, element.setRequired children = .ok changed ↔
      List.Forall₂ PassesFor children element.schema.required ∧
        changed = { element with required := children.map bound }) ∧
    ((∀ children, (∃ changed, element.setRequired children = .ok changed) ↔
      List.Forall₂ IsElementNamed children element.schema.required) ↔
        "text" ∉ element.schema.required) ∧
    ∀ output changes,
      ((ElementOf.ofSchema element.schema output).after changes).required = [] ∨
        List.Forall₂ PassesFor
          (((ElementOf.ofSchema element.schema output).after changes).required.map Value.node)
          element.schema.required := by
  refine ⟨fun _ _ => setRequired_eq_ok_iff_passes, binds_elements_iff element, ?_⟩
  intro output changes
  have fresh : (ElementOf.ofSchema element.schema output).BoundFor element.schema :=
    ⟨rfl, .inl rfl⟩
  exact (after_keeps (fun _ _ => boundFor_next) changes fresh).required

/-- A text is bound where an element is required, if the element is called `text`. -/
theorem text_is_bound_for_an_element :
    ∃ registry schema changed,
      Registry.ofSource "text; holder with [text];" = .ok registry ∧
      registry.schema? "holder" = some schema ∧
      (ElementOf.ofSchema schema none).setRequired [.node (.text "x")] = .ok changed ∧
      changed.required = [.text "x"] ∧
      ¬ List.Forall₂ IsElementNamed [.node (.text "x")] schema.required := by
  have declares : yields (fun registry =>
      (registry.schema? "holder").any fun schema => schema.required == ["text"])
      (Registry.ofSource "text; holder with [text];") = true := by
    decide +kernel
  obtain ⟨registry, declared, known⟩ := exists_of_yields declares
  obtain ⟨schema, found, isRequired⟩ := (Option.any_eq_true _ _).mp known
  have required : schema.required = ["text"] := beq_iff_eq.mp isRequired
  refine ⟨registry, schema, _, declared, found, setRequired_eq_ok.mpr ⟨required.symm, rfl⟩, rfl, ?_⟩
  rw [required, List.forall₂_cons]
  rintro ⟨⟨_, same, -⟩, -⟩
  cases same

end TypedMarkup.Document
