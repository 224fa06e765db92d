import TypedMarkup.Document.Element
import TypedMarkup.Proofs.Success

/-!
Contract: what the changes of elements do.

Owns: for each change that can be refused, when it is taken and what the element is then. Proofs
about elements start from these and leave the changes closed.
-/

namespace TypedMarkup.Document

section

variable {element changed : Element} {name : String} {type : AttributeType} {child : Node}
  {nodes : List Node}

theorem setAttribute_eq_ok {value : Value} :
    element.setAttribute name value = .ok changed ↔
      Table.has element.slots (keyOf name) = true ∧
        changed = { element with slots := Table.put (keyOf name) value element.slots } := by
  unfold ElementOf.setAttribute
  split
  · next present =>
    rw [Except.ok.injEq, eq_comm]
    exact (and_iff_right present).symm
  · next absent => simp [absent]

theorem attributeType_eq_ok :
    element.attributeType name = .ok type ↔ element.schema.attributeType? name = some type := by
  unfold ElementOf.attributeType
  split
  · next found => simp [found]
  · next absent => simp [absent]

theorem parseAttribute_eq_ok {name literal : String} :
    element.parseAttribute name literal = .ok changed ↔
      ∃ type value, element.attributeType name = .ok type ∧ type.parse literal = .ok value ∧
        element.setAttribute name value = .ok changed := by
  simp only [ElementOf.parseAttribute, bind_eq_ok, mapError_eq_ok]
  constructor
  · rintro ⟨type, typed, value, read, set⟩
    exact ⟨type, value, typed, read, set⟩
  · rintro ⟨type, value, typed, read, set⟩
    exact ⟨type, typed, value, read, set⟩

/-- What the type makes of a value is set as it is, whatever else the host remembers then. -/
theorem coerceAttribute_of_coerce {value fitted : Value} {memory : Host.Memory}
    (typed : element.attributeType name = .ok type)
    (coerced : (type.coerce value).run' memory = .ok fitted)
    (set : element.setAttribute name fitted = .ok changed) :
    (element.coerceAttribute name value).run' memory = .ok changed := by
  obtain ⟨⟨result, behind⟩, run, same⟩ := map_eq_ok.mp coerced
  cases same
  simp only [ElementOf.coerceAttribute, typed, StateT.run', bind, StateT.bind, Except.bind,
    Except.mapError, liftM, monadLift, MonadLift.monadLift, StateT.lift, pure, Except.pure, run,
    set, Functor.map, Except.map]

theorem setRequired_eq_ok {children : List Value} :
    element.setRequired children = .ok changed ↔
      children.map requiredNameOf = element.schema.required ∧
        changed = { element with required := children.map bound } := by
  unfold ElementOf.setRequired
  dsimp only
  split
  · next named =>
    rw [Except.ok.injEq, eq_comm]
    exact (and_iff_right named).symm
  · next different => simp [different]

theorem map_bound_node (nodes : List Node) : (nodes.map Value.node).map bound = nodes := by
  rw [List.map_map]
  exact List.map_id nodes

theorem append_eq_ok :
    element.append (.node child) = .ok changed ↔
      ∃ constraint, element.schema.constraint = some constraint ∧ constraint ∈ child.tags ∧
        changed = { element with optional := element.optional ++ [child] } := by
  unfold ElementOf.append
  split
  · next absent => simp [absent]
  · next constraint present =>
    dsimp only
    split
    · next accepted =>
      rw [Except.ok.injEq, eq_comm]
      simp [present, List.contains_iff_mem.mp accepted]
    · next rejected =>
      simp [present, mt List.contains_iff_mem.mpr rejected]

/-- Adding nodes one by one looks at nothing but the schema and adds them at the end. -/
theorem extend_eq_none :
    element.extend (nodes.map .node) = (changed, none) ↔
      (∀ node ∈ nodes, ∃ constraint, element.schema.constraint = some constraint ∧
        constraint ∈ node.tags) ∧
      changed = { element with optional := element.optional ++ nodes } := by
  induction nodes generalizing element with
  | nil => simp [ElementOf.extend, eq_comm]
  | cons node rest ih =>
    rw [List.map_cons, ElementOf.extend, List.forall_mem_cons]
    split
    · next longer appended =>
      obtain ⟨constraint, present, accepted, rfl⟩ := append_eq_ok.mp appended
      rw [ih, List.append_assoc]
      exact and_congr_left' (and_iff_right ⟨constraint, present, accepted⟩).symm
    · next refused =>
      refine iff_of_false (by simp) ?_
      rintro ⟨⟨⟨constraint, present, accepted⟩, -⟩, -⟩
      cases refused.symm.trans (append_eq_ok.mpr ⟨constraint, present, accepted, rfl⟩)

end

end TypedMarkup.Document
