import TypedMarkup.Document.View
import TypedMarkup.Proofs.Document.Histories

/-!
Contract: how an element is written depends on the outcome of its history only.

Owns: `Effects`, what the changes that succeed have done, kind by kind, `Effects.Agree`, that two
histories end alike, and the theorem that elements with such histories are written alike.

The effects of a history are found by running it, and the element that it leads to is made from them
alone. Changes of different kinds and changes that fail leave no trace in the order of the others.
-/

namespace TypedMarkup

/-! ## Writes to a table -/

namespace Table

section

variable {α : Type}

theorem putAll_append (table : Table α) (first second : List (String × α)) :
    table.putAll (first ++ second) = (table.putAll first).putAll second :=
  List.foldl_append

/-- The first entry of a table gets the last value that is written under its name. -/
theorem putAll_entry (entry : String × α) (rest : Table α) (writes : List (String × α)) :
    putAll (entry :: rest) writes =
      (entry.1, (writes.reverse.lookup entry.1).getD entry.2) ::
        putAll rest (writes.filter fun write => write.1 ≠ entry.1) := by
  induction writes generalizing entry rest with
  | nil => rfl
  | cons write writes ih =>
    have first : List.lookup entry.1 [write] =
        if entry.1 = write.1 then some write.2 else none := get?_cons write [] entry.1
    rw [putAll_cons, put, List.reverse_cons, List.lookup_append, first]
    by_cases same : entry.1 = write.1
    · rw [if_pos same, if_pos same, ih, List.filter_cons_of_neg (by simpa using same.symm), same]
      cases List.lookup write.1 writes.reverse <;> rfl
    · rw [if_neg same, if_neg same, ih, List.filter_cons_of_pos (by simpa using Ne.symm same),
        putAll_cons, Option.or_none]

theorem lookup_filter_ne (writes : List (String × α)) (name other : String) :
    (writes.filter fun write => write.1 ≠ other).lookup name =
      if name = other then none else writes.lookup name := by
  induction writes with
  | nil => simp
  | cons write writes ih =>
    have head (rest : List (String × α)) : List.lookup name (write :: rest) =
        if name = write.1 then some write.2 else List.lookup name rest := get?_cons write rest name
    by_cases same : write.1 = other
    · rw [List.filter_cons_of_neg (by simpa using same), ih, head, same]
      split <;> simp_all
    · rw [List.filter_cons_of_pos (by simpa using same), head, ih, head]
      split <;> simp_all

/-- Writes under the names of a table count by the last one of each name. -/
theorem putAll_congr {table : Table α} {first second : List (String × α)}
    (firstKnown : ∀ write ∈ first, write.1 ∈ table.names)
    (secondKnown : ∀ write ∈ second, write.1 ∈ table.names)
    (last : ∀ name, first.reverse.lookup name = second.reverse.lookup name) :
    table.putAll first = table.putAll second := by
  induction table generalizing first second with
  | nil =>
    have none {writes : List (String × α)}
        (known : ∀ write ∈ writes, write.1 ∈ names ([] : Table α)) : writes = [] :=
      List.eq_nil_iff_forall_not_mem.mpr fun write member => List.not_mem_nil (known write member)
    rw [none firstKnown, none secondKnown]
  | cons entry rest ih =>
    have known {writes : List (String × α)}
        (inTable : ∀ write ∈ writes, write.1 ∈ names (entry :: rest)) :
        ∀ write ∈ writes.filter fun write => write.1 ≠ entry.1, write.1 ∈ names rest := by
      intro write member
      obtain ⟨inside, other⟩ := List.mem_filter.mp member
      exact (List.mem_cons.mp (inTable write inside)).resolve_left (by simpa using other)
    rw [putAll_entry, putAll_entry, last]
    refine congrArg _ (ih (known firstKnown) (known secondKnown) fun name => ?_)
    rw [← List.filter_reverse, ← List.filter_reverse, lookup_filter_ne, lookup_filter_ne, last]

end

end Table

namespace Document

/-! ## The effects of a history -/

/-- What changes have done that succeeded, each kind in the order of the changes. -/
structure Effects where
  attributes : List (String × Value) := []
  data : List (String × String) := []
  handlers : List (String × Handler Value) := []
  required : List (List Node) := []
  children : List Node := []

instance : Append Effects where
  append first second :=
    { attributes := first.attributes ++ second.attributes
      data := first.data ++ second.data
      handlers := first.handlers ++ second.handlers
      required := first.required ++ second.required
      children := first.children ++ second.children }

/-- What one change does to an element, if it succeeds: the value that an attribute then has, the
required children, or the children behind those of before. -/
def Change.effects (element : Element) (change : Change) : Effects :=
  let outcome := change.apply element
  let unlessFailed (done : Effects) : Effects := if outcome.failure.isSome then {} else done
  let written (name : String) : Effects :=
    unlessFailed { attributes := [(keyOf name, outcome.element.attributeValue name)] }
  match change with
  | setAttribute name _ => written name
  | parseAttribute name _ => written name
  | coerceAttribute name _ _ => written name
  | setData name value => { data := [(name, value)] }
  | setHandler handler => { handlers := [(handler.event, handler)] }
  | setRequired _ => unlessFailed { required := [outcome.element.required] }
  | append _ => { children := outcome.element.optional.drop element.optional.length }
  | extend _ => { children := outcome.element.optional.drop element.optional.length }

/-- What changes do to an element, one after another. -/
def ElementOf.effects (element : Element) : List Change → Effects
  | [] => {}
  | change :: rest =>
    change.effects element ++ ElementOf.effects (change.apply element).element rest

/-- Two histories end alike: the same last write of each attribute, the same last handler of each
event, the same data names in the order of their first writes with the same last values, the same
required children, set last, and the same children in the same order. -/
structure Effects.Agree (first second : Effects) : Prop where
  attributes : ∀ key, first.attributes.reverse.lookup key = second.attributes.reverse.lookup key
  handlers : ∀ event, first.handlers.reverse.lookup event = second.handlers.reverse.lookup event
  dataOrder : distinct (first.data.map Prod.fst) = distinct (second.data.map Prod.fst)
  dataValues : ∀ name, first.data.reverse.lookup name = second.data.reverse.lookup name
  required : first.required.getLast? = second.required.getLast?
  children : first.children = second.children

def Effects.applied (effects : Effects) (element : Element) : Element :=
  { element with
    slots := Table.putAll element.slots effects.attributes
    data := Table.putAll element.data effects.data
    handlers := Table.putAll element.handlers effects.handlers
    required := effects.required.getLast?.getD element.required
    optional := element.optional ++ effects.children }

section

variable {element changed : Element} {schema : Schema}

theorem applied_nothing (element : Element) : ({} : Effects).applied element = element := by
  simp [Effects.applied, Table.putAll]

theorem applied_append (first second : Effects) (element : Element) :
    (first ++ second).applied element = second.applied (first.applied element) := by
  have fields : first ++ second = ⟨first.attributes ++ second.attributes,
    first.data ++ second.data, first.handlers ++ second.handlers,
    first.required ++ second.required, first.children ++ second.children⟩ := rfl
  simp only [Effects.applied, fields, Table.putAll_append, List.getLast?_append, List.append_assoc]
  cases second.required.getLast? <;> rfl

/-- An attribute is written with the value that it has behind, or the change has failed. -/
theorem applied_written {name : String} {result : Except Failure Element}
    (sets : ∀ changed, result = .ok changed →
      ∃ value, element.setAttribute name value = .ok changed) :
    let outcome := Outcome.ofWhole element result
    let effects : Effects := if outcome.failure.isSome then {} else
      { attributes := [(keyOf name, outcome.element.attributeValue name)] }
    outcome.element = effects.applied element ∧
      ∀ write ∈ effects.attributes, write.1 ∈ Table.names element.slots := by
  cases result with
  | error failure => exact ⟨(applied_nothing element).symm, List.forall_mem_nil _⟩
  | ok changed =>
    obtain ⟨value, set⟩ := sets changed rfl
    obtain ⟨present, rfl⟩ := setAttribute_eq_ok.mp set
    have read : (Table.get? (Table.put (keyOf name) value element.slots) (keyOf name)).getD .none =
        value := by
      rw [Table.get?_put, if_pos rfl]
      rfl
    refine ⟨?_, List.forall_mem_singleton.mpr (Table.has_iff_mem_names.mp present)⟩
    simp only [Outcome.ofWhole, Option.isSome_none, Bool.false_eq_true, if_false,
      ElementOf.attributeValue, read]
    simp [Effects.applied, Table.putAll]

theorem applied_required {result : Except Failure Element}
    (sets : ∀ changed, result = .ok changed →
      ∃ children, changed = { element with required := children }) :
    let outcome := Outcome.ofWhole element result
    let effects : Effects := if outcome.failure.isSome then {} else
      { required := [outcome.element.required] }
    outcome.element = effects.applied element ∧
      ∀ write ∈ effects.attributes, write.1 ∈ Table.names element.slots := by
  cases result with
  | error failure => exact ⟨(applied_nothing element).symm, List.forall_mem_nil _⟩
  | ok changed =>
    obtain ⟨children, rfl⟩ := sets changed rfl
    refine ⟨?_, List.forall_mem_nil _⟩
    simp [Outcome.ofWhole, Effects.applied, Table.putAll]

theorem applied_children {taken : List Node}
    (grown : changed = { element with optional := element.optional ++ taken }) :
    changed = Effects.applied
      { children := changed.optional.drop element.optional.length } element := by
  subst grown
  simp [Effects.applied, Table.putAll]

/-- One change leaves what its effects make of the element. -/
theorem apply_eq_applied (change : Change) (element : Element) :
    (change.apply element).element = (change.effects element).applied element ∧
      ∀ write ∈ (change.effects element).attributes, write.1 ∈ Table.names element.slots := by
  cases change with
  | setAttribute name value => exact applied_written fun _ set => ⟨value, mapError_eq_ok.mp set⟩
  | parseAttribute name literal =>
    refine applied_written fun _ parsed => ?_
    obtain ⟨_, value, -, -, set⟩ := parseAttribute_eq_ok.mp parsed
    exact ⟨value, set⟩
  | coerceAttribute name value memory =>
    exact applied_written fun _ coerced => exists_fitted coerced
  | setData name value =>
    refine ⟨?_, List.forall_mem_nil _⟩
    simp [Change.apply, Change.effects, Effects.applied, Table.putAll, ElementOf.setData]
  | setHandler handler =>
    refine ⟨?_, List.forall_mem_nil _⟩
    simp [Change.apply, Change.effects, Effects.applied, Table.putAll, ElementOf.setHandler]
  | setRequired children =>
    refine applied_required fun _ set => ?_
    unfold ElementOf.setRequiredFrom at set
    split at set
    · cases set
    · obtain ⟨-, rfl⟩ := setRequired_eq_ok.mp (mapError_eq_ok.mp set)
      exact ⟨_, rfl⟩
  | append child =>
    obtain ⟨taken, grown⟩ : ∃ taken, (Change.apply element (.append child)).element =
        { element with optional := element.optional ++ taken } := by
      rw [Change.apply]
      cases appended : element.append child with
      | error refusal => exact ⟨[], by rw [List.append_nil]; rfl⟩
      | ok changed =>
        obtain ⟨node, -, -, rfl⟩ := append_eq_ok_iff_takes.mp appended
        exact ⟨[node], rfl⟩
    exact ⟨applied_children grown, List.forall_mem_nil _⟩
  | extend children =>
    obtain ⟨taken, rest, -, -, grown, -⟩ := extendFrom_extendedBy element children
    exact ⟨applied_children grown, List.forall_mem_nil _⟩

/-- A history leaves what its effects make of the element. -/
theorem after_eq_applied (changes : List Change) (wellFormed : element.WellFormed schema) :
    element.after changes = (element.effects changes).applied element ∧
      ∀ write ∈ (element.effects changes).attributes, write.1 ∈ Table.names schema.attributes := by
  induction changes generalizing element with
  | nil => exact ⟨(applied_nothing element).symm, List.forall_mem_nil _⟩
  | cons change rest ih =>
    obtain ⟨step, stepKnown⟩ := apply_eq_applied change element
    obtain ⟨run, runKnown⟩ := ih (wellFormed_next wellFormed (next_apply change element))
    rw [wellFormed.slots] at stepKnown
    refine ⟨?_, List.forall_mem_append.mpr ⟨stepKnown, runKnown⟩⟩
    rw [ElementOf.effects, applied_append, ← step, ← run]
    rfl

end

/-! ## How elements are written -/

/-- Two elements are written alike, with the same attributes and the same view. -/
def ElementOf.WrittenAlike (left right : Element) : Prop :=
  (Node.element left).written = (Node.element right).written ∧
    left.attributePairs = right.attributePairs ∧
    (Node.element left).viewed = (Node.element right).viewed

theorem writtenAlike_of_handlers (element : Element) {handlers : List (String × Handler Value)}
    (same : ∀ event, element.handlers.lookup event = handlers.lookup event) :
    element.WrittenAlike { element with handlers := handlers } := by
  obtain ⟨schema, output, slots, data, own, required, optional, identity⟩ := element
  dsimp only at same
  refine ⟨?_, rfl, ?_⟩
  · simp only [Node.written, Node.obstacle?, elementObstacle?, Node.render, renderElement,
      handlersMarkup, same]
  · simp only [Node.viewed, Node.obstacle?, elementObstacle?, Node.view, viewElement,
      ElementOf.orderedHandlers, same]
    rfl

theorem Effects.Agree.writtenAlike {first second : Effects} {element : Element}
    (agree : first.Agree second) (noData : element.data = [])
    (firstKnown : ∀ write ∈ first.attributes, write.1 ∈ Table.names element.slots)
    (secondKnown : ∀ write ∈ second.attributes, write.1 ∈ Table.names element.slots) :
    (first.applied element).WrittenAlike (second.applied element) := by
  have slots := Table.putAll_congr firstKnown secondKnown agree.attributes
  have data : Table.putAll element.data first.data = Table.putAll element.data second.data := by
    simp only [noData, Table.putAll_nil_eq_lastWrites, Table.lastWrites, agree.dataOrder,
      agree.dataValues]
  have handlers (event : String) : (Table.putAll element.handlers first.handlers).lookup event =
      (Table.putAll element.handlers second.handlers).lookup event := by
    change Table.get? _ event = Table.get? _ event
    rw [Table.get?_putAll, Table.get?_putAll, agree.handlers]
  have same : second.applied element = { first.applied element with
      handlers := Table.putAll element.handlers second.handlers } := by
    simp only [Effects.applied, slots, data, agree.required, agree.children]
  rw [same]
  exact writtenAlike_of_handlers (first.applied element) handlers

end Document

end TypedMarkup
