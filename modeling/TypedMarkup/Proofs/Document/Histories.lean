import TypedMarkup.Document.Change
import TypedMarkup.Proofs.Document.Changes
import TypedMarkup.Proofs.Table

/-!
Contract: what every history of changes leaves of an element.

Owns: `ElementOf.Next`, what one change can make of an element, `ElementOf.WellFormed`, the shape
that a schema gives to its elements, that one change keeps it, and that all changes in a row keep
it, whatever their arguments are and whichever of them fail. Also `Change.Spares`, what a change
leaves alone when it fails.

Does not own: whether the values and children that are set are those that the schema asks for.
-/

namespace TypedMarkup

def Schema.Takes (schema : Schema) (child : Value) : Prop :=
  ∃ node constraint, child = .node node ∧ (∀ value, node ≠ .foreign value) ∧
    schema.constraint = some constraint ∧ constraint ∈ node.tags

namespace Document

/-- An element has the slots of its schema, optional children only where the schema has a
constraint and only such as it takes, and all of its required children or none. -/
structure ElementOf.WellFormed (schema : Schema) (element : Element) : Prop where
  sameSchema : element.schema = schema
  slots : Table.names element.slots = Table.names schema.attributes
  hasOptional : element.optional?.isSome = true ↔ schema.constraint.isSome = true
  optional : ∀ child ∈ element.optional, schema.Takes (.node child)
  required : element.required = [] ∨ element.required.length = schema.required.length

/-- Of the children of a supply, those before the first that the schema does not take stand behind
the children of before, and nothing else has changed. If all of them do, the supply alone can have
failed. -/
def ElementOf.ExtendedBy (children : Supply) (before : Element) (outcome : Outcome) : Prop :=
  ∃ taken rest, children.items = taken.map Value.node ++ rest ∧
    (∀ node ∈ taken, before.schema.Takes (.node node)) ∧
    outcome.element = { before with optional := before.optional ++ taken } ∧
    ((rest = [] ∧ outcome.failure = children.finish) ∨
      ∃ rejected further, rest = rejected :: further ∧ ¬ before.schema.Takes rejected ∧
        outcome.failure.isSome = true)

/-- A change that fails leaves everything as it was, except that one that adds several children
keeps those that come before the failure. -/
def Change.Spares (change : Change) (before : Element) (outcome : Outcome) : Prop :=
  match change with
  | extend children => before.ExtendedBy children outcome
  | _ => outcome.failure.isSome = true → outcome.element = before

/-- What one change can make of an element, whether it fails or not. -/
inductive ElementOf.Next (element : Element) : Element → Prop where
  | same : Next element element
  | typed {name : String} {value : Value} {changed : Element}
      (set : element.setAttribute name value = .ok changed) : Next element changed
  | unchecked (data : List (String × String)) (handlers : List (String × Handler Value)) :
      Next element { element with data := data, handlers := handlers }
  | required {children : List Value} {changed : Element}
      (set : element.setRequired children = .ok changed) : Next element changed
  | optional {taken : List Node} (allTaken : ∀ node ∈ taken, element.schema.Takes (.node node)) :
      Next element { element with optional := element.optional ++ taken }

/-! ## Adding children -/

section

variable {element changed : Element} {schema : Schema}

theorem append_eq_ok_iff_takes {child : Value} :
    element.append child = .ok changed ↔
      ∃ node, child = .node node ∧ element.schema.Takes child ∧
        changed = { element with optional := element.optional ++ [node] } := by
  constructor
  · intro appended
    cases child with
    | node node =>
      obtain ⟨constraint, present, accepted, rfl⟩ := append_eq_ok.mp appended
      refine ⟨node, rfl, ⟨node, constraint, rfl, ?_, present, accepted⟩, rfl⟩
      rintro value rfl
      cases accepted
    | _ =>
      unfold ElementOf.append at appended
      split at appended
      · cases appended
      · cases appended
  · rintro ⟨node, rfl, ⟨_, constraint, same, -, present, accepted⟩, rfl⟩
    cases same
    exact append_eq_ok.mpr ⟨constraint, present, accepted, rfl⟩

theorem not_takes_of_append_error {child : Value} {refusal : Refusal}
    (refused : element.append child = .error refusal) : ¬ element.schema.Takes child := by
  rintro ⟨node, constraint, rfl, proper, present, accepted⟩
  have appended := append_eq_ok_iff_takes.mpr
    ⟨node, rfl, ⟨node, constraint, rfl, proper, present, accepted⟩, rfl⟩
  rw [refused] at appended
  cases appended

/-- Children are added up to the first that is not taken, or all of them. -/
theorem extend_eq {items : List Value} {refusal : Option Refusal}
    (extended : element.extend items = (changed, refusal)) :
    ∃ taken rest, items = taken.map Value.node ++ rest ∧
      (∀ node ∈ taken, element.schema.Takes (.node node)) ∧
      changed = { element with optional := element.optional ++ taken } ∧
      ((rest = [] ∧ refusal = none) ∨
        ∃ rejected further, rest = rejected :: further ∧ ¬ element.schema.Takes rejected ∧
          refusal.isSome = true) := by
  induction items generalizing element with
  | nil =>
    cases extended
    exact ⟨[], [], rfl, List.forall_mem_nil _, by rw [List.append_nil], .inl ⟨rfl, rfl⟩⟩
  | cons child others ih =>
    rw [ElementOf.extend] at extended
    split at extended
    · next longer appended =>
      obtain ⟨node, rfl, takes, rfl⟩ := append_eq_ok_iff_takes.mp appended
      obtain ⟨taken, rest, rfl, allTaken, rfl, ends⟩ := ih extended
      refine ⟨node :: taken, rest, rfl, List.forall_mem_cons.mpr ⟨takes, allTaken⟩, ?_, ends⟩
      simp only [List.append_assoc, List.singleton_append]
    -- The first child that is refused ends the loop, and nothing behind it is looked at.
    · next found refused =>
      cases extended
      exact ⟨[], child :: others, rfl, List.forall_mem_nil _, by rw [List.append_nil],
        .inr ⟨child, others, rfl, not_takes_of_append_error refused, rfl⟩⟩

theorem extendFrom_extendedBy (element : Element) (children : Supply) :
    element.ExtendedBy children (element.extendFrom children) := by
  unfold ElementOf.extendFrom
  split
  · next extended refusal adding =>
    obtain ⟨taken, rest, items, allTaken, rfl, ⟨-, never⟩ | ends⟩ := extend_eq adding
    · cases never
    · exact ⟨taken, rest, items, allTaken, rfl, .inr ends⟩
  · next extended adding =>
    obtain ⟨taken, rest, items, allTaken, rfl, ⟨complete, -⟩ | ⟨_, _, -, -, never⟩⟩ :=
      extend_eq adding
    · exact ⟨taken, rest, items, allTaken, rfl, .inl ⟨complete, rfl⟩⟩
    · cases never

/-! ## One change -/

theorem ofWhole_spares {result : Except Failure Element} :
    (Outcome.ofWhole element result).failure.isSome = true →
      (Outcome.ofWhole element result).element = element := by
  cases result with
  | ok changed => intro never; cases never
  | error failure => intro _; rfl

/-- No change that fails does more than it may. -/
theorem apply_spares (change : Change) (element : Element) :
    change.Spares element (change.apply element) := by
  cases change with
  | setAttribute | parseAttribute | coerceAttribute | setRequired | append => exact ofWhole_spares
  | setData | setHandler => intro never; cases never
  | extend children => exact extendFrom_extendedBy element children

theorem isSome_optional? (element : Element) :
    element.optional?.isSome = element.schema.constraint.isSome := by
  rw [ElementOf.optional?, Option.isSome_map]

theorem wellFormed_ofSchema (schema : Schema) (output : Option OutputType) :
    (ElementOf.ofSchema schema output).WellFormed schema where
  sameSchema := rfl
  slots := by
    rw [ElementOf.ofSchema, Table.names, List.map_map]
    rfl
  hasOptional := by rw [isSome_optional?, ElementOf.ofSchema]
  optional := List.forall_mem_nil _
  required := .inl rfl

theorem wellFormed_setAttribute {name : String} {value : Value}
    (wellFormed : element.WellFormed schema) (set : element.setAttribute name value = .ok changed) :
    changed.WellFormed schema := by
  obtain ⟨present, rfl⟩ := setAttribute_eq_ok.mp set
  have slots : Table.names (Table.put (keyOf name) value element.slots) =
      Table.names schema.attributes :=
    (Table.names_put (Table.has_iff_mem_names.mp present)).trans wellFormed.slots
  exact ⟨wellFormed.sameSchema, slots, wellFormed.hasOptional, wellFormed.optional,
    wellFormed.required⟩

theorem exists_fitted {name : String} {value : Value} {memory : Host.Memory}
    (coerced : (element.coerceAttribute name value).run' memory = .ok changed) :
    ∃ fitted, element.setAttribute name fitted = .ok changed := by
  obtain ⟨⟨result, after⟩, ran, same⟩ := map_eq_ok.mp coerced
  cases same
  change StateT.run (element.coerceAttribute name value) memory = _ at ran
  unfold ElementOf.coerceAttribute at ran
  rw [StateT.run_bind, bind_eq_ok] at ran
  obtain ⟨⟨type, between⟩, -, ranFitting⟩ := ran
  rw [StateT.run_bind, bind_eq_ok] at ranFitting
  obtain ⟨⟨fitted, behind⟩, -, ranSetting⟩ := ranFitting
  refine ⟨fitted, ?_⟩
  cases set : element.setAttribute name fitted with
  | error refusal =>
    rw [set] at ranSetting
    cases ranSetting
  | ok reached =>
    rw [set] at ranSetting
    cases ranSetting
    rfl

theorem next_ofWhole {result : Except Failure Element}
    (succeeds : ∀ changed, result = .ok changed → element.Next changed) :
    element.Next (Outcome.ofWhole element result).element := by
  cases result with
  | ok changed => exact succeeds changed rfl
  | error failure => exact .same

theorem next_apply (change : Change) (element : Element) :
    element.Next (change.apply element).element := by
  cases change with
  | setAttribute name value =>
    exact next_ofWhole fun _ set => .typed (mapError_eq_ok.mp set)
  | parseAttribute name literal =>
    apply next_ofWhole
    intro changed parsed
    obtain ⟨_, value, -, -, set⟩ := parseAttribute_eq_ok.mp parsed
    exact .typed set
  | coerceAttribute name value memory =>
    apply next_ofWhole
    intro changed coerced
    obtain ⟨fitted, set⟩ := exists_fitted coerced
    exact .typed set
  | setData | setHandler => exact .unchecked _ _
  | setRequired children =>
    apply next_ofWhole
    intro changed set
    unfold ElementOf.setRequiredFrom at set
    split at set
    · cases set
    · exact .required (mapError_eq_ok.mp set)
  | append child =>
    apply next_ofWhole
    intro changed appended
    obtain ⟨node, rfl, takes, rfl⟩ := append_eq_ok_iff_takes.mp (mapError_eq_ok.mp appended)
    exact .optional (List.forall_mem_singleton.mpr takes)
  | extend children =>
    obtain ⟨taken, rest, -, allTaken, grown, -⟩ := extendFrom_extendedBy element children
    rw [Change.apply, grown]
    exact .optional allTaken

/-- One change keeps the shape of an element, whether it fails or not. -/
theorem wellFormed_next (wellFormed : element.WellFormed schema) (next : element.Next changed) :
    changed.WellFormed schema := by
  cases next with
  | same => exact wellFormed
  | typed set => exact wellFormed_setAttribute wellFormed set
  | unchecked data handlers =>
    exact ⟨wellFormed.sameSchema, wellFormed.slots, wellFormed.hasOptional, wellFormed.optional,
      wellFormed.required⟩
  | @required children _ set =>
    obtain ⟨named, rfl⟩ := setRequired_eq_ok.mp set
    have complete : (children.map bound).length = schema.required.length := by
      rw [← wellFormed.sameSchema, ← named, List.length_map, List.length_map]
    exact ⟨wellFormed.sameSchema, wellFormed.slots, wellFormed.hasOptional, wellFormed.optional,
      .inr complete⟩
  | optional allTaken =>
    rw [wellFormed.sameSchema] at allTaken
    refine ⟨wellFormed.sameSchema, wellFormed.slots, ?_,
      List.forall_mem_append.mpr ⟨wellFormed.optional, allTaken⟩, wellFormed.required⟩
    rw [isSome_optional?, wellFormed.sameSchema]

/-! ## All changes -/

/-- What no change destroys holds after any changes. -/
theorem after_keeps {property : Element → Prop}
    (kept : ∀ before behind, property before → ElementOf.Next before behind → property behind)
    (changes : List Change) (holds : property element) : property (element.after changes) := by
  induction changes generalizing element with
  | nil => exact holds
  | cons change rest ih =>
    exact ih (kept _ _ holds (next_apply change element))

theorem wellFormed_after (changes : List Change) (wellFormed : element.WellFormed schema) :
    (element.after changes).WellFormed schema :=
  after_keeps (fun _ _ => wellFormed_next) changes wellFormed

end

/-- However an element is changed, with whatever arguments and whichever of the changes fail, it
keeps the shape of its schema; and a change that fails on the way leaves the element as it was, or
with the children that it had added before. -/
theorem every_history_is_well_formed (schema : Schema) (output : Option OutputType)
    (changes : List Change) :
    ((ElementOf.ofSchema schema output).after changes).WellFormed schema ∧
      ∀ change : Change, change.Spares ((ElementOf.ofSchema schema output).after changes)
        (change.apply ((ElementOf.ofSchema schema output).after changes)) :=
  ⟨wellFormed_after changes (wellFormed_ofSchema schema output),
    fun change => apply_spares change _⟩

end Document

end TypedMarkup
