import TypedMarkup.Document.Store
import TypedMarkup.Proofs.Document.Changes
import TypedMarkup.Proofs.Table

/-!
Contract: what the changes of elements keep.

Owns: `Document.Node.Made`, the documents that the operations on elements can make, and
`Document.Node.Regular`, what all of them have in common: an element has no children of a kind that
its schema has no place for, and each handler stands at its own event.
-/

namespace TypedMarkup.Document

/-- A document that can be made: a text, or the element of a schema after any number of changes, of
itself or of the elements in it. -/
inductive Node.Made : Node → Prop where
  | text (value : String) : Made (.text value)
  | verbatim (value : String) : Made (.verbatim value)
  | ofSchema (schema : Schema) (output : Option OutputType) :
      Made (.element (.ofSchema schema output))
  | setAttribute {element changed : Element} {name : String} {value : Value}
      (made : Made (.element element)) (set : element.setAttribute name value = .ok changed) :
      Made (.element changed)
  | setData {element : Element} (name value : String) (made : Made (.element element)) :
      Made (.element (element.setData name value))
  | setHandler {element : Element} (handler : Handler Value) (made : Made (.element element)) :
      Made (.element (element.setHandler handler))
  | setRequired {element changed : Element} {children : List Value}
      (made : Made (.element element)) (childrenMade : ∀ child ∈ children.map bound, Made child)
      (set : element.setRequired children = .ok changed) : Made (.element changed)
  | append {element changed : Element} {child : Node} (made : Made (.element element))
      (childMade : Made child) (appended : element.append (.node child) = .ok changed) :
      Made (.element changed)
  | identified {element : Element} (identity : Option Identity) (made : Made (.element element)) :
      Made (.element { element with identity := identity })
  | refreshed {node : Node} {changed : Element} (identity : Identity) (made : Made node)
      (changedMade : Made (.element changed)) : Made (node.refresh identity changed)

/-- An element has no children that its schema has no place for, and its handlers stand at their own
events. -/
structure ElementOf.Regular (element : Element) : Prop where
  required : element.schema.required = [] → element.required = []
  optional : element.schema.constraint = none → element.optional = []
  handlers : ∀ entry ∈ element.handlers, entry.2.event = entry.1

/-- Every element of a document is regular. -/
inductive Node.Regular : Node → Prop where
  | text (value : String) : Regular (.text value)
  | verbatim (value : String) : Regular (.verbatim value)
  | element {element : Element} (own : element.Regular)
      (required : ∀ child ∈ element.required, Regular child)
      (optional : ∀ child ∈ element.optional, Regular child) : Regular (.element element)

theorem regular_ofSchema (schema : Schema) (output : Option OutputType) :
    Node.Regular (.element (.ofSchema schema output)) :=
  .element ⟨fun _ => rfl, fun _ => rfl, List.forall_mem_nil _⟩ (List.forall_mem_nil _)
    (List.forall_mem_nil _)

section

variable {element changed : Element} (regular : Node.Regular (.element element))

include regular

theorem regular_setAttribute {name : String} {value : Value}
    (set : element.setAttribute name value = .ok changed) : Node.Regular (.element changed) := by
  obtain ⟨-, rfl⟩ := setAttribute_eq_ok.mp set
  cases regular with
  | element own required optional =>
    exact .element ⟨own.required, own.optional, own.handlers⟩ required optional

theorem regular_setHandler (handler : Handler Value) :
    Node.Regular (.element (element.setHandler handler)) := by
  cases regular with
  | element own required optional =>
    exact .element ⟨own.required, own.optional, Table.forall_mem_put rfl own.handlers⟩ required
      optional

theorem regular_setRequired {children : List Value}
    (childrenRegular : ∀ child ∈ children.map bound, child.Regular)
    (set : element.setRequired children = .ok changed) : Node.Regular (.element changed) := by
  obtain ⟨named, rfl⟩ := setRequired_eq_ok.mp set
  cases regular with
  | element own required optional =>
    refine .element ⟨?_, own.optional, own.handlers⟩ childrenRegular optional
    intro noneRequired
    rw [noneRequired, List.map_eq_nil_iff] at named
    rw [named]
    rfl

theorem regular_append {child : Node} (childRegular : child.Regular)
    (appended : element.append (.node child) = .ok changed) : Node.Regular (.element changed) := by
  obtain ⟨constraint, present, -, rfl⟩ := append_eq_ok.mp appended
  cases regular with
  | element own required optional =>
    refine .element ⟨own.required, ?_, own.handlers⟩ required ?_
    · intro absent
      rw [absent] at present
      cases present
    · exact List.forall_mem_append.mpr ⟨optional, List.forall_mem_singleton.mpr childRegular⟩

end

theorem refreshNodes_eq_map (identity : Identity) (changed : Element) (nodes : List Node) :
    refreshNodes identity changed nodes = nodes.map (Node.refresh identity changed) := by
  induction nodes with
  | nil => rfl
  | cons node rest ih => rw [refreshNodes, ih, List.map_cons]

/-- A changed element can be put in place wherever it occurs. -/
theorem regular_refresh {node : Node} {changed : Element} (identity : Identity)
    (regular : node.Regular) (changedRegular : Node.Regular (.element changed)) :
    (node.refresh identity changed).Regular := by
  induction regular with
  | text value => exact .text value
  | verbatim value => exact .verbatim value
  | @element element own _ _ requiredHypothesis optionalHypothesis =>
    obtain ⟨schema, output, slots, data, handlers, required, optional, identified⟩ := element
    rw [Node.refresh, refreshElement, refreshNodes_eq_map, refreshNodes_eq_map]
    split
    · exact changedRegular
    · refine .element ⟨?_, ?_, own.handlers⟩ ?_ ?_
      · exact fun noneRequired => List.map_eq_nil_iff.mpr (own.required noneRequired)
      · exact fun noConstraint => List.map_eq_nil_iff.mpr (own.optional noConstraint)
      · exact List.forall_mem_map.mpr requiredHypothesis
      · exact List.forall_mem_map.mpr optionalHypothesis

theorem Node.Made.regular {node : Node} (made : node.Made) : node.Regular := by
  induction made with
  | text value => exact .text value
  | verbatim value => exact .verbatim value
  | ofSchema schema output => exact regular_ofSchema schema output
  | setAttribute _ set ih => exact regular_setAttribute ih set
  | setData name value _ ih | identified identity _ ih =>
    cases ih with
    | element own required optional =>
      exact .element ⟨own.required, own.optional, own.handlers⟩ required optional
  | setHandler handler _ ih =>
    exact regular_setHandler ih handler
  | setRequired _ _ set ih childrenHypothesis =>
    exact regular_setRequired ih childrenHypothesis set
  | append _ _ appended ih childHypothesis =>
    exact regular_append ih childHypothesis appended
  | refreshed identity _ _ ih changedHypothesis =>
    exact regular_refresh identity ih changedHypothesis

end TypedMarkup.Document
