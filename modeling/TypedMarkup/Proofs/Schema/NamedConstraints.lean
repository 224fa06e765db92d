import TypedMarkup.Proofs.Document.Histories
import TypedMarkup.Proofs.Document.Validity
import TypedMarkup.Proofs.Schema.Resolution

/-!
Contract: which children a constraint accepts, and when they are all of one name.

Owns: what a constraint accepts when a unit is checked and when a document is changed, said by the
declarations, and the condition on the declarations under which a constraint that names an element
accepts this element only.

Elements, categories and kinds of text share their names. A constraint that names an element is also
met by every element that lists the name as a category, and by text if the name is one that text
goes by. Nothing else can meet it.
-/

namespace TypedMarkup

open Markup

/-- A declaration has a name or lists it as a category. -/
def Declaration.AnswersTo (name : String) (declaration : Declaration) : Prop :=
  declaration.name = name ∨ name ∈ declaration.categories

/-- A written child goes by a name: its declaration answers to the name, or it is a text and the
name is one for text. What a block will produce is not known yet. -/
def Markup.Node.GoesBy (declarations : List Declaration) (name : String) : Node → Prop
  | .element tag _ _ =>
    ∃ declaration ∈ declarations, declaration.name = keyOf tag.name ∧ declaration.AnswersTo name
  | .text _ _ => name ∈ textTags
  | .block _ => True

/-- A written child is an element of a name, as far as this is known. -/
def Markup.Node.IsNamed (name : String) : Node → Prop
  | .element tag _ _ => keyOf tag.name = name
  | .text _ _ => False
  | .block _ => True

def Document.Node.GoesBy (name : String) : Document.Node → Prop
  | .element found => found.schema.name = name ∨ name ∈ found.schema.categories
  | .text _ => name ∈ textTags
  | .verbatim _ => name ∈ textTags
  | .foreign _ => False

/-- A node has its schema, if it needs one, from a registry. -/
def Document.Node.MadeFrom (registry : Registry) : Document.Node → Prop
  | .element found => found.schema ∈ registry.schemas
  | _ => True

/-- Elements of a schema accept no other children than elements of a name, neither when a unit is
checked nor when a node is added. -/
structure Schema.Homogeneous (registry : Registry) (name : String) (schema : Schema) : Prop where
  checked : ∀ source tag child, checkAccepted registry source tag schema child = .ok () →
    child.IsNamed name
  added : ∀ (element changed : Element) (node : Document.Node), element.schema = schema →
    node.MadeFrom registry → element.append (.node node) = .ok changed →
      node.schemaName? = some name

/-- A name is not used for anything but an element. -/
structure NamesOneElement (declarations : List Declaration) (name : String) : Prop where
  noCategory : ∀ declaration ∈ declarations, name ∈ declaration.categories → declaration.name = name
  noText : name ∉ textTags

section

variable {declarations : List Declaration} {registry : Registry} {schema : Schema} {name : String}

/-! ## Schemas and declarations -/

section

variable {declaration : Declaration} {child : Node} {source : String} {tag : Tag}
  {node : Document.Node}

theorem Registry.exists_declaration (made : Registry.ofDeclarations declarations = .ok registry)
    (among : schema ∈ registry.schemas) :
    ∃ declaration ∈ declarations, declaration.Describes schema := by
  obtain ⟨-, matched⟩ := Registry.ofDeclarations_resolved made
  obtain ⟨declaration, member, here⟩ := exists_left_of_mem matched among
  exact ⟨declaration, member, Declaration.describes_of_resolve here⟩

theorem Registry.exists_schema (made : Registry.ofDeclarations declarations = .ok registry)
    (member : declaration ∈ declarations) :
    ∃ schema, registry.schema? declaration.name = some schema ∧ declaration.Describes schema := by
  obtain ⟨-, matched⟩ := Registry.ofDeclarations_resolved made
  obtain ⟨schema, -, here⟩ := exists_right_of_mem matched member
  exact ⟨schema, (Registry.schema?_eq_some made).mpr ⟨declaration, member, rfl, here⟩,
    Declaration.describes_of_resolve here⟩

theorem Declaration.Describes.answersTo_iff (describes : declaration.Describes schema) :
    declaration.AnswersTo name ↔ schema.name = name ∨ name ∈ schema.categories := by
  rw [Declaration.AnswersTo, describes.name, describes.categories]

/-! ## What is accepted -/

theorem acceptedBy_iff_goesBy (made : Registry.ofDeclarations declarations = .ok registry) :
    child.AcceptedBy registry name ↔ child.GoesBy declarations name := by
  cases child with
  | element tag children span =>
    constructor
    · rintro ⟨found, resolved, accepted⟩
      obtain ⟨declaration, member, describes⟩ :=
        Registry.exists_declaration made (Registry.mem_of_schema? resolved)
      have named := Registry.name_of_schema? resolved
      rw [describes.name] at named
      refine ⟨declaration, member, named, describes.answersTo_iff.mpr ?_⟩
      exact accepted.symm.imp_left Eq.symm
    · rintro ⟨declaration, member, named, answers⟩
      obtain ⟨found, resolved, describes⟩ := Registry.exists_schema made member
      rw [named] at resolved
      refine ⟨found, resolved, ?_⟩
      exact (describes.answersTo_iff.mp answers).symm.imp_right Eq.symm
  | text | block => exact Iff.rfl

theorem checkAccepted_iff_goesBy (made : Registry.ofDeclarations declarations = .ok registry)
    (constrained : schema.constraint = some name) :
    checkAccepted registry source tag schema child = .ok () ↔ child.GoesBy declarations name := by
  rw [checkAccepted_eq_ok, ← acceptedBy_iff_goesBy made]
  constructor
  · rintro ⟨_, present, accepted⟩
    cases constrained.symm.trans present
    exact accepted
  · intro accepted
    exact ⟨name, constrained, accepted⟩

theorem Document.Node.mem_tags_iff : name ∈ node.tags ↔ node.GoesBy name := by
  cases node with
  | element found =>
    rw [Document.Node.tags, Schema.tags, List.mem_append, List.mem_singleton, or_comm, eq_comm]
    rfl
  | text | verbatim => exact Iff.rfl
  | foreign value => exact iff_of_false List.not_mem_nil id

theorem exists_append_iff {element : Element}
    (constrained : element.schema.constraint = some name) :
    (∃ changed, element.append (.node node) = .ok changed) ↔ node.GoesBy name := by
  simp only [Document.append_eq_ok, constrained, ← Document.Node.mem_tags_iff]
  constructor
  · rintro ⟨_, _, same, accepted, -⟩
    cases same
    exact accepted
  · intro accepted
    exact ⟨_, name, rfl, accepted, rfl⟩

/-! ## Children of one name -/

/-- Children are of one name just if the name is not used for anything else. -/
theorem homogeneous_iff (made : Registry.ofDeclarations declarations = .ok registry)
    (constrained : schema.constraint = some name) :
    schema.Homogeneous registry name ↔ NamesOneElement declarations name := by
  have addedHere : ∀ node : Document.Node, node.GoesBy name → ∃ changed,
      (Document.ElementOf.ofSchema schema none).append (.node node) = .ok changed :=
    fun _ => (exists_append_iff constrained).mpr
  constructor
  · intro homogeneous
    constructor
    · -- An element of the declaration can be added, so it has the name.
      intro declaration member listed
      obtain ⟨other, resolved, describes⟩ := Registry.exists_schema made member
      obtain ⟨changed, appended⟩ := addedHere (.element (.ofSchema other none))
        (describes.answersTo_iff.mp (.inr listed))
      have named := homogeneous.added _ _ (.element (.ofSchema other none)) rfl
        (Registry.mem_of_schema? resolved) appended
      exact describes.name.symm.trans (Option.some.inj named)
    · intro forText
      obtain ⟨changed, appended⟩ := addedHere (.text "") forText
      cases homogeneous.added _ _ (.text "") rfl trivial appended
  · intro alone
    have onlyName : ∀ declaration ∈ declarations, declaration.AnswersTo name →
        declaration.name = name := by
      rintro declaration member (named | listed)
      · exact named
      · exact alone.noCategory declaration member listed
    constructor
    · intro source tag child accepted
      have goesBy := (checkAccepted_iff_goesBy made constrained).mp accepted
      cases child with
      | element childTag children span =>
        obtain ⟨declaration, member, named, answers⟩ := goesBy
        exact named.symm.trans (onlyName declaration member answers)
      | text value span => exact alone.noText goesBy
      | block expression => trivial
    · rintro element changed node rfl madeFrom appended
      have goesBy := (exists_append_iff constrained).mp ⟨changed, appended⟩
      cases node with
      | element found =>
        obtain ⟨declaration, member, describes⟩ := Registry.exists_declaration made madeFrom
        have named := onlyName declaration member (describes.answersTo_iff.mpr goesBy)
        exact congrArg some (describes.name.trans named)
      | text | verbatim => exact absurd goesBy alone.noText
      | foreign value => cases goesBy

theorem goesBy_of_within (made : Registry.ofDeclarations declarations = .ok registry)
    (constrained : schema.constraint = some name) {unit : Markup.Source} {checked : Checked}
    (accepted : unit.check registry source = .ok checked) {children : List Node} {span : Span}
    (inside : Node.Within (.element tag children span) unit.root)
    (resolved : registry.schema? (keyOf tag.name) = some schema) :
    ∀ child ∈ children.drop schema.required.length, child.GoesBy declarations name := by
  obtain ⟨sameTree, fits⟩ := checkNode_sound unit.root checked accepted
  have conforms := fits.conforms
  rw [sameTree] at conforms
  obtain ⟨found, own⟩ := conforms tag children span inside
  cases resolved.symm.trans own.resolved
  intro child member
  obtain ⟨constraint, present, acceptedHere⟩ := own.further child member
  cases constrained.symm.trans present
  exact (acceptedBy_iff_goesBy made).mp acceptedHere

end

end

/-- A constraint that is the name of an element accepts this element, every element that lists the
name as a category, text if the name is one for text, and nothing else: when a unit is checked and
when a node is added, so in every unit and after any changes. Its children are of one name if and
only if no other declaration lists the name and text does not go by it. -/
theorem named_constraints_accept_by_tag {declarations : List Declaration} {registry : Registry}
    {schema : Schema} {name : String}
    (made : Registry.ofDeclarations declarations = .ok registry)
    (constrained : schema.constraint = some name) :
    (∀ source tag child, checkAccepted registry source tag schema child = .ok () ↔
      child.GoesBy declarations name) ∧
    (∀ (unit : Markup.Source) source checked, unit.check registry source = .ok checked →
      ∀ tag children span, Node.Within (.element tag children span) unit.root →
        registry.schema? (keyOf tag.name) = some schema →
          ∀ child ∈ children.drop schema.required.length, child.GoesBy declarations name) ∧
    (∀ element : Element, element.schema = schema → ∀ node,
      (∃ changed, element.append (.node node) = .ok changed) ↔ node.GoesBy name) ∧
    (∀ output changes, ∀ child ∈
      ((Document.ElementOf.ofSchema schema output).after changes).optional, child.GoesBy name) ∧
    (schema.Homogeneous registry name ↔ NamesOneElement declarations name) := by
  refine ⟨fun _ _ _ => checkAccepted_iff_goesBy made constrained, ?_, ?_, ?_,
    homogeneous_iff made constrained⟩
  · intro unit source checked accepted tag children span inside resolved
    exact goesBy_of_within made constrained accepted inside resolved
  · rintro element rfl node
    exact exists_append_iff constrained
  · intro output changes child member
    have wellFormed := Document.wellFormed_after changes
      (Document.wellFormed_ofSchema schema output)
    obtain ⟨_, constraint, same, -, present, accepted⟩ := wellFormed.optional child member
    cases same
    cases constrained.symm.trans present
    exact Document.Node.mem_tags_iff.mp accepted

theorem items_of_a_list_are_of_one_name :
    ∃ declarations registry schema,
      Declaration.parseAll "item; list with item;" = .ok declarations ∧
      Registry.ofDeclarations declarations = .ok registry ∧
      registry.schema? "list" = some schema ∧ schema.constraint = some "item" ∧
      schema.Homogeneous registry "item" := by
  have declares : yields (fun declarations => yields (fun registry =>
      (registry.schema? "list").any (fun schema => schema.constraint == some "item") &&
        declarations.all fun declaration => declaration.categories.isEmpty)
      (Registry.ofDeclarations declarations)) (Declaration.parseAll "item; list with item;") =
        true := by
    decide +kernel
  obtain ⟨declarations, parsed, resolves⟩ := exists_of_yields declares
  obtain ⟨registry, made, known⟩ := exists_of_yields resolves
  obtain ⟨listKnown, noCategories⟩ := (Bool.and_eq_true _ _).mp known
  obtain ⟨schema, found, isConstrained⟩ := (Option.any_eq_true _ _).mp listKnown
  have constrained : schema.constraint = some "item" := beq_iff_eq.mp isConstrained
  refine ⟨declarations, registry, schema, parsed, made, found, constrained, ?_⟩
  refine (named_constraints_accept_by_tag made constrained).2.2.2.2.mpr ⟨?_, by decide⟩
  intro declaration member listed
  have empty := List.all_eq_true.mp noCategories declaration member
  rw [List.isEmpty_iff.mp empty] at listed
  cases listed

/-- A list with an element that is no item. -/
def foreignItem : Markup.Source :=
  { root := .element ⟨"list", [], false, .origin⟩
      [.element ⟨"other", [], true, .origin⟩ [] .origin] .origin
    output := none
    span := .origin }

/-- A list whose constraint names the declared element `item` takes another element, which lists
`item` as a category: in a unit that is checked, and in a document. -/
theorem foreignItem_is_accepted :
    ∃ registry list item other,
      Registry.ofSource "item; other in [item]; list with item;" = .ok registry ∧
      registry.schema? "list" = some list ∧ registry.schema? "item" = some item ∧
      registry.schema? "other" = some other ∧ list.constraint = some item.name ∧
      other.name ≠ item.name ∧
      (∃ checked, foreignItem.check registry "<list><other/></list>" = .ok checked) ∧
      ∃ changed, (Document.ElementOf.ofSchema list none).append
        (.node (.element (.ofSchema other none))) = .ok changed := by
  have declares : yields (fun registry =>
      (registry.schema? "list").any (fun list => (registry.schema? "item").any fun item =>
        (registry.schema? "other").any fun other => list.constraint == some item.name &&
          (other.name != item.name && other.categories.contains item.name)) &&
      yields (fun _ => true) (foreignItem.check registry "<list><other/></list>"))
      (Registry.ofSource "item; other in [item]; list with item;") = true := by
    decide +kernel
  obtain ⟨registry, made, known⟩ := exists_of_yields declares
  obtain ⟨schemasKnown, checks⟩ := (Bool.and_eq_true _ _).mp known
  obtain ⟨list, listFound, itemKnown⟩ := (Option.any_eq_true _ _).mp schemasKnown
  obtain ⟨item, itemFound, otherKnown⟩ := (Option.any_eq_true _ _).mp itemKnown
  obtain ⟨other, otherFound, related⟩ := (Option.any_eq_true _ _).mp otherKnown
  rw [Bool.and_eq_true, Bool.and_eq_true, beq_iff_eq, bne_iff_ne, List.contains_iff_mem] at related
  obtain ⟨constrained, different, listed⟩ := related
  obtain ⟨checked, accepted, -⟩ := exists_of_yields checks
  exact ⟨registry, list, item, other, made, listFound, itemFound, otherFound, constrained,
    different, ⟨checked, accepted⟩, (exists_append_iff constrained).mpr (.inr listed)⟩

end TypedMarkup
