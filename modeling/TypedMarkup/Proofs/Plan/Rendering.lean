import TypedMarkup.Proofs.Document.StartTag
import TypedMarkup.Proofs.Document.Unambiguous
import TypedMarkup.Proofs.Markup.Direct
import TypedMarkup.Proofs.Plan.Blocks
import TypedMarkup.Proofs.Plan.Static
import TypedMarkup.Proofs.Schema.Length

/-!
Contract: checking, planning, building and writing keep the meaning of a tree.

Owns: what each of the passes does to the attributes and the children of an element in which
nothing is computed, and the theorem that the written document is the text of
`Markup.Node.direct?`.

Does not own: trees with expressions, whose text depends on the scope.
-/

namespace TypedMarkup

open Markup

variable {plan : TagPlan} {head : CheckedTag} {started : Element}

/-! ## Attributes and what is made of them -/

section

variable {β : Type} {reads : String → Attribute → β → Prop} {found : List (String × Attribute)}
  {entries : List (String × β)}

/-- An entry has the name of an attribute and is read from it. -/
def ReadFrom (reads : String → Attribute → β → Prop) (found : String × Attribute)
    (entry : String × β) : Prop :=
  entry.1 = found.1 ∧ reads found.1 found.2 entry.2

section

variable (matched : List.Forall₂ (ReadFrom reads) found entries) {name : String} {value : β}

include matched

theorem map_fst_of_readFrom : entries.map Prod.fst = found.map Prod.fst := by
  induction matched with
  | nil => rfl
  | cons here _ ih =>
    rw [List.map_cons, List.map_cons, ih, here.1]

theorem lookup_of_readFrom (held : entries.lookup name = some value) :
    ∃ last, found.lookup name = some last ∧ reads name last value := by
  induction matched with
  | nil => cases held
  | @cons first entry restFound restEntries here _ ih =>
    obtain ⟨sameName, read⟩ := here
    have heldCases := Table.get?_cons entry restEntries name
    have foundCases := Table.get?_cons first restFound name
    rw [Table.get?, held] at heldCases
    rw [Table.get?] at foundCases
    by_cases same : name = first.1
    · rw [if_pos (same.trans sameName.symm)] at heldCases
      cases heldCases
      exact ⟨first.2, by rw [foundCases, if_pos same], same ▸ read⟩
    · rw [if_neg (sameName ▸ same)] at heldCases
      obtain ⟨last, among, readThere⟩ := ih heldCases.symm
      exact ⟨last, by rw [foundCases, if_neg same]; exact among, readThere⟩

/-- The last entry of a name is read from the last attribute of that name. -/
theorem last?_of_readFrom (held : entries.reverse.lookup name = some value) :
    ∃ last, Direct.last? found name = some last ∧ reads name last value :=
  lookup_of_readFrom (List.rel_reverse matched) held

theorem last?_eq_none_of_readFrom (absent : entries.reverse.lookup name = none) :
    Direct.last? found name = none := by
  rw [Direct.last?, ← Option.not_isSome_iff_eq_none, ← Table.mem_distinct_names,
    ← map_fst_of_readFrom matched, Table.mem_distinct_names, absent]
  simp

end

theorem mapM_eq_some_map {α γ : Type} {items : List α} {step : α → Option γ} {result : α → γ}
    (each : ∀ item ∈ items, step item = some (result item)) :
    items.mapM step = some (items.map result) := by
  induction items with
  | nil => rfl
  | cons item rest ih =>
    obtain ⟨here, further⟩ := List.forall_mem_cons.mp each
    rw [List.mapM_cons, here, ih further]
    rfl

end

section

variable {ι π β ε : Type}

/-- A run each of whose steps writes an entry writes all of them in order. -/
theorem exists_entries_of_foldlM {step : Element → π → Except ε Element}
    {write : Element → β → Element} {planned : ι → π → Prop} {related : ι → β → Prop}
    {items : List ι} {plans : List π} {start result : Element}
    (matched : List.Forall₂ planned items plans) (run : plans.foldlM step start = .ok result)
    (each : ∀ item ∈ items, ∀ plan before after, planned item plan →
      step before plan = .ok after → ∃ entry, related item entry ∧ after = write before entry) :
    ∃ entries, List.Forall₂ related items entries ∧ result = entries.foldl write start := by
  induction matched generalizing start with
  | nil =>
    rw [List.foldlM_nil, pure_eq_ok] at run
    exact ⟨[], .nil, run.symm⟩
  | cons here _ ih =>
    rw [List.foldlM_cons, bind_eq_ok] at run
    obtain ⟨next, stepped, more⟩ := run
    obtain ⟨eachHere, eachFurther⟩ := List.forall_mem_cons.mp each
    obtain ⟨entry, relatedHere, rfl⟩ := eachHere _ _ _ here stepped
    obtain ⟨entries, relatedFurther, rfl⟩ := ih more eachFurther
    exact ⟨entry :: entries, .cons relatedHere relatedFurther, rfl⟩

end

theorem dashed_keyOf (name : String) : dashed (keyOf name) = dashed name := by
  refine ofList_map_ofList ?_ name
  intro character
  split <;> simp_all

theorem keyOf_dashed (name : String) : keyOf (dashed name) = keyOf name := by
  refine ofList_map_ofList ?_ name
  intro character
  split <;> simp_all

/-! ## Start tags -/

/-- A literal always gives a value. -/
theorem parse_ne_none {type : AttributeType} {literal : String} :
    type.parse literal ≠ .ok .none := by
  intro parsed
  cases type with
  | checked kind =>
    rw [AttributeType.parse] at parsed
    obtain ⟨_, -, same⟩ := map_eq_ok.mp parsed
    cases same
  | string _ => exact absurd (parse_admits parsed) (by simp [AttributeType.Admits, Value.content?])
  | _ => exact absurd (parse_admits parsed) (by simp [AttributeType.Admits])

theorem slotMarkup_eq_typedText {key : String} {value : Value} (present : value ≠ .none) :
    slotMarkup (slotText (key, value)) = Direct.typedText key value := by
  cases value with
  | none => exact absurd rfl present
  | bool truth => cases truth <;> rfl
  | _ => rfl

/-- Inserting names one by one sorts them as merging does. -/
theorem ascending_eq_sortNames {names : List String} (nodup : names.Nodup) :
    Direct.ascending names = sortNames names := by
  let notAbove : String → String → Prop := fun first second => ¬ second < first
  have : Std.Total notAbove := ⟨fun first second =>
    (String.le_total first second).imp String.not_lt.mpr String.not_lt.mpr⟩
  have : IsTrans String notAbove := ⟨fun first second third low high =>
    String.not_lt.mpr (String.le_trans (String.not_lt.mp low) (String.not_lt.mp high))⟩
  have permuted : (Direct.ascending names).Perm (sortNames names) :=
    (List.perm_insertionSort notAbove names).trans (List.mergeSort_perm names _).symm
  have sorted : (sortNames names).Pairwise notAbove := by
    refine (pairwise_sortNames nodup).imp ?_
    intro first second below above
    exact String.lt_irrefl first (String.lt_trans below above)
  refine permuted.eq_of_pairwise ?_ (List.pairwise_insertionSort notAbove names) sorted
  intro first second _ _ notBelow notAbove
  exact String.le_antisymm (String.not_lt.mp notBelow) (String.not_lt.mp notAbove)

section

variable {schema : Schema} {attributes : List Attribute}

def ReadsTyped (schema : Schema) (key : String) (found : Attribute) (value : Value) : Prop :=
  ∃ literal type, found.value.literal? = some literal ∧
    schema.attributes.get? key = some type ∧ type.parse literal = .ok value

def ReadsData (_ : String) (found : Attribute) (text : String) : Prop :=
  found.value.literal? = some text

/-- A handler prints the literal of an attribute. -/
def ReadsHandler (_ : String) (found : Attribute) (handler : Document.Handler Value) : Prop :=
  ∃ literal, found.value.literal? = some literal ∧ handler.text? = some literal

theorem typedMarkup?_eq_some {values : List (String × Value)}
    (matched : List.Forall₂ (ReadFrom (ReadsTyped schema)) (Direct.typedEntries attributes) values)
    {slots : List (String × Value)} (unset : ∀ slot ∈ slots, slot.2 = .none) :
    ∃ texts, Direct.typedMarkup? schema attributes = some texts ∧
      String.join texts = slotsMarkup (slotTexts (Table.putAll slots values)) := by
  refine ⟨_, ?_, (slotsMarkup_putAll unset values).symm⟩
  rw [Direct.typedMarkup?, ← map_fst_of_readFrom matched,
    ascending_eq_sortNames (Table.nodup_distinct_names values)]
  apply mapM_eq_some_map
  intro key named
  rw [mem_sortNames, Table.mem_distinct_names, Option.isSome_iff_exists] at named
  obtain ⟨value, held⟩ := named
  obtain ⟨last, lastFound, literal, type, written, typed, parsed⟩ := last?_of_readFrom matched held
  have present : value ≠ .none := by
    rintro rfl
    exact parse_ne_none parsed
  simp [lastFound, written, typed, parsed, held, slotMarkup_eq_typedText present, Except.toOption]

theorem dataMarkup?_eq_some {texts : List (String × String)}
    (matched : List.Forall₂ (ReadFrom ReadsData) (Direct.dataEntries attributes) texts) :
    ∃ markup, Direct.dataMarkup? attributes = some markup ∧
      String.join markup = dataMarkup (Table.putAll [] texts) := by
  refine ⟨_, ?_, rfl⟩
  rw [Table.putAll_nil_eq_lastWrites, Table.lastWrites_eq_map texts "", List.map_map,
    Direct.dataMarkup?, ← map_fst_of_readFrom matched]
  apply mapM_eq_some_map
  intro name named
  rw [Table.mem_distinct_names, Option.isSome_iff_exists] at named
  obtain ⟨text, held⟩ := named
  obtain ⟨last, lastFound, written⟩ := last?_of_readFrom matched held
  have literal : last.value.literal? = some text := written
  simp [lastFound, literal, held, Direct.valued_data]

theorem handlerMarkup?_eq_some {handlers : List (String × Document.Handler Value)}
    (matched : List.Forall₂ (ReadFrom ReadsHandler) (Direct.eventEntries attributes) handlers) :
    ∃ markup, Direct.handlerMarkup? attributes = some markup ∧
      String.join markup = handlersMarkup (Table.putAll [] handlers) := by
  refine ⟨_, ?_, rfl⟩
  apply mapM_eq_some_map
  intro event _
  have bound : List.lookup event (Table.putAll [] handlers) = handlers.reverse.lookup event := by
    have found := Table.get?_putAll [] handlers event
    simpa [Table.get?] using found
  rw [bound]
  cases held : handlers.reverse.lookup event with
  | none =>
    simp [last?_eq_none_of_readFrom matched held]
  | some handler =>
    obtain ⟨last, lastFound, literal, written, printed⟩ := last?_of_readFrom matched held
    simp [lastFound, written, printed, Direct.valued_handler]

end

/-! ## Elements at their start -/

section

variable {schema : Schema}

def putSlot (element : Element) (entry : String × Value) : Element :=
  { element with slots := Table.put entry.1 entry.2 element.slots }

def putData (element : Element) (entry : String × String) : Element :=
  { element with data := Table.put entry.1 entry.2 element.data }

def putHandler (element : Element) (entry : String × Document.Handler Value) : Element :=
  { element with handlers := Table.put entry.1 entry.2 element.handlers }

theorem foldl_putSlot (element : Element) (entries : List (String × Value)) :
    entries.foldl putSlot element =
      { element with slots := Table.putAll element.slots entries } := by
  induction entries generalizing element with
  | nil => rfl
  | cons entry rest ih => exact ih (putSlot element entry)

theorem foldl_putData (element : Element) (entries : List (String × String)) :
    entries.foldl putData element =
      { element with data := Table.putAll element.data entries } := by
  induction entries generalizing element with
  | nil => rfl
  | cons entry rest ih => exact ih (putData element entry)

theorem foldl_putHandler (element : Element) (entries : List (String × Document.Handler Value)) :
    entries.foldl putHandler element =
      { element with handlers := Table.putAll element.handlers entries } := by
  induction entries generalizing element with
  | nil => rfl
  | cons entry rest ih => exact ih (putHandler element entry)

theorem literal?_of_not_expression {value : AttributeValue}
    (literal : ∀ code, value ≠ .expression code) :
    ∃ text raw quoted span, value = .literal text raw quoted span := by
  cases value with
  | literal text raw quoted span => exact ⟨text, raw, quoted, span, rfl⟩
  | expression code => exact absurd rfl (literal code)

end

namespace Build

section

variable {schema : Schema} {source name : String} {output : Option OutputType} {scope : Scope}
  {before after : Element}

theorem setAttribute_writes {typed : TypedAttribute} {plan : AttributePlan}
    (declared : typed.Declared schema) (literal : ∀ code, typed.written.value ≠ .expression code)
    (planned : Draft.planAttribute source name typed = .ok plan)
    (set : setAttribute scope before plan = .ok after) :
    ∃ entry, ReadFrom (ReadsTyped schema) (typed.key, typed.written) entry ∧
      after = putSlot before entry := by
  obtain ⟨text, raw, quoted, span, written⟩ := literal?_of_not_expression literal
  rw [Draft.planAttribute, written] at planned
  dsimp only at planned
  split at planned
  · next value parsed =>
    cases planned
    rw [setAttribute] at set
    obtain ⟨-, rfl⟩ := Document.setAttribute_eq_ok.mp (mapError_eq_ok.mp set)
    have sameKey : keyOf typed.key = typed.key := by rw [declared.key, keyOf_keyOf]
    refine ⟨(typed.key, value), ⟨rfl, text, typed.type, ?_, declared.type, parsed⟩, ?_⟩
    · rw [written, AttributeValue.literal?]
    · rw [putSlot, sameKey]
  · cases planned

theorem setData_writes {entry : String × Attribute}
    (literal : ∀ code, entry.2.value ≠ .expression code)
    (set : setData scope before (Draft.planData entry) = .ok after) :
    ∃ written, ReadFrom ReadsData entry written ∧ after = putData before written := by
  obtain ⟨text, raw, quoted, span, written⟩ := literal?_of_not_expression literal
  rw [setData, Draft.planData, written] at set
  cases set
  refine ⟨(entry.1, text), ⟨rfl, ?_⟩, rfl⟩
  rw [ReadsData, written, AttributeValue.literal?]

/-- A written handler is program text, which only one output type takes. -/
theorem setHandler_writes {entry : String × Attribute} {plan : EventPlan}
    (literal : ∀ code, entry.2.value ≠ .expression code)
    (planned : Draft.planEvent output source name entry = .ok plan)
    (set : setHandler output scope before plan = .ok after) :
    ∃ bound, ReadFrom ReadsHandler entry bound ∧ after = putHandler before bound := by
  obtain ⟨text, raw, quoted, span, written⟩ := literal?_of_not_expression literal
  unfold Draft.planEvent at planned
  split at planned
  · cases planned
  · next target =>
    rw [written] at planned
    dsimp only at planned
    split at planned
    · next taken =>
      cases planned
      have printed : target = .string := by
        cases target with
        | string => rfl
        | dom => cases taken
      subst printed
      cases set
      refine ⟨(entry.1, ⟨entry.1, .text text, .string⟩), ⟨rfl, text, ?_, rfl⟩, rfl⟩
      rw [written, AttributeValue.literal?]
    · cases planned

/-- An element starts with an entry for each of its attributes, each kind in its own table, whatever
is known of the entries. -/
theorem startElement_entries {readsTyped : String → Attribute → Value → Prop}
    {readsData : String → Attribute → String → Prop}
    {readsHandler : String → Attribute → Document.Handler Value → Prop}
    (divided : head.buckets.Divides head.schema head.tag.attributes)
    (eachTyped : ∀ typed ∈ head.buckets.typed, ∀ plan before after,
      Draft.planAttribute source head.tag.name typed = .ok plan →
        setAttribute scope before plan = .ok after →
          ∃ entry, ReadFrom readsTyped (typed.key, typed.written) entry ∧
            after = putSlot before entry)
    (eachData : ∀ found ∈ head.buckets.data, ∀ before after,
      setData scope before (Draft.planData found) = .ok after →
        ∃ entry, ReadFrom readsData found entry ∧ after = putData before entry)
    (eachHandler : ∀ found ∈ head.buckets.events, ∀ plan before after,
      Draft.planEvent output source head.tag.name found = .ok plan →
        setHandler output scope before plan = .ok after →
          ∃ entry, ReadFrom readsHandler found entry ∧ after = putHandler before entry)
    (planned : Draft.planTag output source head = .ok plan)
    (began : startElement output scope plan = .ok started) :
    ∃ values texts handlers,
      List.Forall₂ (ReadFrom readsTyped) (Direct.typedEntries head.tag.attributes) values ∧
      List.Forall₂ (ReadFrom readsData) (Direct.dataEntries head.tag.attributes) texts ∧
      List.Forall₂ (ReadFrom readsHandler) (Direct.eventEntries head.tag.attributes) handlers ∧
      started =
        { Document.ElementOf.ofSchema head.schema output with
          slots := Table.putAll (Document.ElementOf.ofSchema head.schema output).slots values
          data := Table.putAll [] texts
          handlers := Table.putAll [] handlers } := by
  obtain ⟨attributePlans, eventPlans, attributesPlanned, eventsPlanned, rfl⟩ :=
    Draft.planTag_eq_ok planned
  unfold startElement at began
  obtain ⟨attributed, attributesRun, behindAttributed⟩ := bind_eq_ok.mp began
  obtain ⟨annotated, dataRun, eventsRun⟩ := bind_eq_ok.mp behindAttributed
  obtain ⟨values, typedMatched, rfl⟩ := exists_entries_of_foldlM
    (mapM_eq_ok.mp attributesPlanned) attributesRun eachTyped
  have dataPlanned : List.Forall₂ (fun entry plan => plan = Draft.planData entry)
      head.buckets.data (head.buckets.data.map Draft.planData) := by
    rw [List.forall₂_map_right_iff, List.forall₂_same]
    exact fun _ _ => rfl
  obtain ⟨texts, dataMatched, rfl⟩ := exists_entries_of_foldlM
    dataPlanned (mapError_eq_ok.mp dataRun)
    fun found member _ before after foundPlanned foundSet =>
      eachData found member before after (foundPlanned ▸ foundSet)
  obtain ⟨handlers, eventsMatched, rfl⟩ := exists_entries_of_foldlM
    (mapM_eq_ok.mp eventsPlanned) eventsRun eachHandler
  refine ⟨values, texts, handlers, ?_, ?_, ?_, ?_⟩
  · rw [divided.typedEntries_eq, List.forall₂_map_left_iff]
    exact typedMatched
  · rw [divided.dataEntries_eq]
    exact dataMatched
  · rw [divided.eventEntries_eq]
    exact eventsMatched
  · rw [foldl_putSlot, foldl_putData, foldl_putHandler]
    rfl

/-- An element without computed attributes starts with what is read from them. -/
theorem startElement_writes (divided : head.buckets.Divides head.schema head.tag.attributes)
    (literal : ∀ found ∈ head.tag.attributes, ∀ code, found.value ≠ .expression code)
    (planned : Draft.planTag output source head = .ok plan)
    (began : startElement output scope plan = .ok started) :
    ∃ values texts handlers,
      List.Forall₂ (ReadFrom (ReadsTyped head.schema)) (Direct.typedEntries head.tag.attributes)
        values ∧
      List.Forall₂ (ReadFrom ReadsData) (Direct.dataEntries head.tag.attributes) texts ∧
      List.Forall₂ (ReadFrom ReadsHandler) (Direct.eventEntries head.tag.attributes) handlers ∧
      started =
        { Document.ElementOf.ofSchema head.schema output with
          slots := Table.putAll (Document.ElementOf.ofSchema head.schema output).slots values
          data := Table.putAll [] texts
          handlers := Table.putAll [] handlers } := by
  refine startElement_entries divided ?_ ?_ ?_ planned began
  · intro typed member _ _ _ typedPlanned typedSet
    exact setAttribute_writes (divided.typed typed member)
      (literal _ (divided.typedOrder.subset (List.mem_map_of_mem member))) typedPlanned typedSet
  · intro found member _ _ foundSet
    exact setData_writes
      (literal _ (divided.dataOrder.subset (List.mem_map_of_mem member))) foundSet
  · intro found member _ _ _ foundPlanned foundSet
    exact setHandler_writes
      (literal _ (divided.eventOrder.subset (List.mem_map_of_mem member))) foundPlanned foundSet

/-! ## Children -/

theorem setRequired_writes {element bound : Element} {children : List Document.Node}
    (fresh : element.required = []) (set : setRequired element children = .ok bound) :
    bound = { element with required := children } := by
  unfold setRequired at set
  split at set
  · next none =>
    cases set
    rw [List.isEmpty_iff.mp none, ← fresh]
  · obtain ⟨-, rfl⟩ := Document.setRequired_eq_ok.mp (mapError_eq_ok.mp set)
    rw [Document.map_bound_node]

/-- Written children are built and added in order. -/
theorem appendOptional_writes {plans : List NodePlan} {element finished : Element}
    (static : ∀ plan ∈ plans, plan.Static)
    (appended : appendOptional output scope element plans = .ok finished) :
    ∃ nodes, plans.mapM (buildNode output scope) = .ok nodes ∧
      finished = { element with optional := element.optional ++ nodes } := by
  obtain ⟨nodes, built, extended⟩ :=
    (appendOptional_eq_ok fun plan member => written_of_static (static plan member)).mp appended
  exact ⟨nodes, mapM_eq_ok.mpr built, (Document.extend_eq_none.mp extended).2⟩

/-! ## Elements -/

theorem startElement_renders (divided : head.buckets.Divides head.schema head.tag.attributes)
    (literal : ∀ found ∈ head.tag.attributes, ∀ code, found.value ≠ .expression code)
    (planned : Draft.planTag output source head = .ok plan)
    (began : startElement output scope plan = .ok started) :
    Direct.startTag? head.schema head.tag.attributes =
        some (slotsMarkup (slotTexts started.slots) ++ dataMarkup started.data ++
          handlersMarkup started.handlers) ∧
      firstObstacle? (slotObstacles started.slots) = none ∧
      started.schema = head.schema ∧ started.required = [] ∧ started.optional = [] := by
  obtain ⟨values, texts, handlers, typedRead, dataRead, handlersRead, rfl⟩ :=
    startElement_writes divided literal planned began
  have unset : ∀ slot ∈ (Document.ElementOf.ofSchema head.schema output).slots,
      slot.2 = .none := by
    intro slot member
    obtain ⟨_, _, rfl⟩ := List.mem_map.mp member
    rfl
  obtain ⟨typed, typedWritten, typedJoin⟩ := typedMarkup?_eq_some typedRead unset
  obtain ⟨data, dataWritten, dataJoin⟩ := dataMarkup?_eq_some dataRead
  obtain ⟨bound, boundWritten, boundJoin⟩ := handlerMarkup?_eq_some handlersRead
  refine ⟨?_, ?_, rfl, rfl, rfl⟩
  · rw [Direct.startTag?, typedWritten, dataWritten, boundWritten, ← typedJoin, ← dataJoin,
      ← boundJoin]
    rfl
  · rw [slotObstacles_eq_none]
    apply Table.forall_mem_putAll
    · intro entry member
      obtain ⟨_, _, -, _, _, -, -, parsed⟩ := exists_left_of_mem typedRead member
      exact obstacle?_of_parse parsed
    · intro slot member
      rw [unset slot member]
      rfl

/-- One tag or two: the written children decide as the children of the tree do. -/
theorem elementMarkup_eq {schema : Schema} {children : List Markup.Node} {texts : List String}
    {name startTag : String} (named : schema.name = keyOf name)
    (sameLength : texts.length = children.length) :
    elementMarkup schema startTag texts =
      if Direct.IsSingle schema children then "<" ++ dashed name ++ startTag ++ "/>"
      else "<" ++ dashed name ++ startTag ++ ">" ++ String.join texts ++ "</" ++ dashed name ++
        ">" := by
  have bothEmpty : texts = [] ↔ children = [] := by
    rw [← List.length_eq_zero_iff, sameLength, List.length_eq_zero_iff]
  have single : (schema.required.isEmpty && schema.constraint.isNone ||
      texts.isEmpty && schema.selfClosing) = true ↔ Direct.IsSingle schema children := by
    simp [Direct.IsSingle, Schema.selfClosing, bothEmpty]
  unfold elementMarkup
  simp only [single, named, dashed_keyOf]

/-- Children that are all written as they stand in the tree. -/
theorem directAll?_eq_some {registry : Registry} {parent : CheckedTag} {parts : List Checked}
    {plans : List NodePlan} {nodes : List Document.Node}
    (each : ∀ part ∈ parts, ∀ plan node,
      Draft.planNode output source (some parent) part = .ok plan →
        buildNode output scope plan = .ok node →
          part.erase.direct? registry = some node.render ∧ node.obstacle? "render" = none)
    (planned : parts.mapM (Draft.planNode output source (some parent)) = .ok plans)
    (built : plans.mapM (buildNode output scope) = .ok nodes) :
    directAll? registry (Checked.eraseAll parts) = some (renderAll nodes) ∧
      nodesObstacle? "render" nodes = none := by
  rw [mapM_eq_ok] at planned built
  induction planned generalizing nodes with
  | nil =>
    cases built
    exact ⟨rfl, rfl⟩
  | @cons part plan _ _ here _ ih =>
    cases built with
    | @cons _ node _ rest builtHere builtFurther =>
      obtain ⟨eachHere, eachFurther⟩ := List.forall_mem_cons.mp each
      obtain ⟨firstWritten, firstShort⟩ := eachHere plan node here builtHere
      obtain ⟨restWritten, restShort⟩ := ih eachFurther builtFurther
      refine ⟨?_, ?_⟩
      · rw [Checked.eraseAll, directAll?, firstWritten, restWritten]
        rfl
      · rw [nodesObstacle?, firstShort, restShort]
        rfl

/-- The document of a static tree is written as the tree is. -/
theorem planNode_renders {registry : Registry} {checked : Checked} (fits : checked.Fits registry)
    (static : checked.erase.Static) {parent : Option CheckedTag} {plan : NodePlan}
    {node : Document.Node} (planned : Draft.planNode output source parent checked = .ok plan)
    (built : buildNode output scope plan = .ok node) :
    checked.erase.direct? registry = some node.render ∧ node.obstacle? "render" = none := by
  induction fits generalizing parent plan node with
  | text value span =>
    cases planned
    cases built
    exact ⟨rfl, rfl⟩
  | block expression => exact absurd (.self _) (static.blocks expression)
  | @element head required optional resolved _ _ divided _ optionalFit requiredHypothesis
      optionalHypothesis =>
      obtain ⟨start, requiredPlans, optionalPlans, startPlanned, requiredPlanned, optionalPlanned,
        rfl⟩ := Draft.planNode_element_eq_ok.mp planned
      obtain ⟨started, children, bound, finished, began, requiredBuilt, boundSet, appended, rfl⟩ :=
        buildNode_element_eq_ok built
      obtain ⟨literal, staticRequired, staticOptional⟩ := Checked.static_parts static
      have optionalPlansStatic : ∀ plan ∈ optionalPlans, plan.Static := by
        intro plan member
        obtain ⟨part, partMember, partPlanned⟩ :=
          exists_left_of_mem (mapM_eq_ok.mp optionalPlanned) member
        exact Draft.planNode_static (optionalFit part partMember)
          (staticOptional part partMember) partPlanned
      obtain ⟨startTag, short, sameSchema, noRequired, noOptional⟩ :=
        startElement_renders divided literal startPlanned began
      obtain rfl := setRequired_writes noRequired boundSet
      obtain ⟨nodes, optionalBuilt, rfl⟩ := appendOptional_writes optionalPlansStatic appended
      obtain ⟨requiredWritten, requiredShort⟩ := directAll?_eq_some
        (fun part member _ _ => requiredHypothesis part member (staticRequired part member))
        requiredPlanned requiredBuilt
      obtain ⟨optionalWritten, optionalShort⟩ := directAll?_eq_some
        (fun part member _ _ => optionalHypothesis part member (staticOptional part member))
        optionalPlanned optionalBuilt
      have childrenWritten :
          directAll? registry (Checked.eraseAll required ++ Checked.eraseAll optional) =
            some (renderAll children ++ renderAll nodes) := by
        rw [directAll?_eq_mapM] at requiredWritten optionalWritten ⊢
        rw [List.mapM_append, requiredWritten, optionalWritten]
        rfl
      have sameLength : (renderAll children ++ renderAll nodes).length =
          (Checked.eraseAll required ++ Checked.eraseAll optional).length := by
        have requiredLength := (mapM_eq_ok.mp requiredPlanned).length_eq.trans
          (mapM_eq_ok.mp requiredBuilt).length_eq
        have optionalLength := (mapM_eq_ok.mp optionalPlanned).length_eq.trans
          (mapM_eq_ok.mp optionalBuilt).length_eq
        simp [renderAll_eq_map, Checked.eraseAll_eq_map, requiredLength, optionalLength]
      have named : head.schema.name = keyOf head.tag.name := Registry.name_of_schema? resolved
      refine ⟨?_, ?_⟩
      · rw [Checked.erase, Markup.Node.direct?, resolved, Option.bind_eq_bind, Option.bind_some,
          startTag, Option.bind_eq_bind, Option.bind_some, childrenWritten, Option.bind_eq_bind,
          Option.bind_some, Document.Node.render, renderElement, noOptional, List.nil_append,
          sameSchema, elementMarkup_eq named sameLength]
        split <;> rfl
      · rw [Document.Node.obstacle?, elementObstacle?, noOptional, List.nil_append, short,
          requiredShort, optionalShort]
        rfl

end

end Build

/-! ## Units -/

/-- A unit in which nothing is computed is written as its tree stands: checking divides its
attributes and children, planning reads its literals, building puts all together again, and writing
sorts what one pass over the tree would have sorted. Nothing is lost, repeated or moved on the
way. -/
theorem written_document_is_direct {unit : Markup.Source} {registry : Registry} {source : String}
    {output : Option OutputType} {checked : Checked} {plan : Plan} (static : unit.root.Static)
    (accepted : unit.check registry source = .ok checked)
    (planned : Plan.ofChecked checked output source = .ok plan) (scope : Scope) :
    ∃ text, unit.root.direct? registry = some text ∧
      (plan.build scope >>= Document.Node.written) = .ok text := by
  obtain ⟨sameTree, fits⟩ := checkNode_sound unit.root checked accepted
  obtain ⟨root, rootPlanned, rfl⟩ := map_eq_ok.mp planned
  rw [← sameTree] at static ⊢
  have settled : Build.Settled fun scope => Build.buildNode output scope root :=
    Build.buildNode_settled (Draft.planNode_static fits static rootPlanned)
  obtain ⟨node, built⟩ := settled.succeeds fun scope =>
    Build.buildNode_blameless (Draft.planNode_fits fits rootPlanned)
  obtain ⟨written, short⟩ := Build.planNode_renders fits static rootPlanned (built scope)
  refine ⟨node.render, written, ?_⟩
  have succeeds : Plan.build ⟨root, output, source⟩ scope = .ok node :=
    mapError_eq_ok.mpr (built scope)
  rw [succeeds, bind_eq_ok]
  refine ⟨node, rfl, ?_⟩
  rw [Document.Node.written, short]
  rfl

/-- A document with required and optional children, switches, attributes out of order, one of them
written twice, and text to be escaped. -/
def unsortedDocument : String :=
  "<html><head><title>\"<&\"</title>" ++
    "<script nomodule=\"true\" async=\"true\" defer=\"false\"/></head>" ++
    "<body onload=\"go(1<2)\" data-l=\"2\" title=\"c\" data-k=\"1\" id=\"b\" data-l=\"3\"" ++
    " onclick=\"x\">\"t\"</body></html>"

/-- The same document as it is written. -/
def sortedDocument : String :=
  "<html><head><title>&lt;&amp;</title><script async nomodule></script></head>" ++
    "<body id=\"b\" title=\"c\" data-l=\"3\" data-k=\"1\" onclick=\"x\"" ++
    " onload=\"go(1&lt;2)\">t</body></html>"

theorem unsortedDocument_is_written :
    ∃ registry unit checked plan,
      Registry.ofDeclarations (Html.structureElements ++ Html.metadataElements) = .ok registry ∧
        Markup.parse unsortedDocument = .ok unit ∧ unit.root.Static ∧
        unit.check registry unsortedDocument = .ok checked ∧
        Plan.ofChecked checked (some .string) unsortedDocument = .ok plan ∧
        ∀ scope, (plan.build scope >>= Document.Node.written) = .ok sortedDocument := by
  have compiles : yields (fun registry => yields (fun unit => yields (fun checked =>
      yields (fun _ => unit.root.isStatic &&
        decide (unit.root.direct? registry = some sortedDocument))
        (Plan.ofChecked checked (some .string) unsortedDocument))
      (unit.check registry unsortedDocument)) (Markup.parse unsortedDocument))
      (Registry.ofDeclarations (Html.structureElements ++ Html.metadataElements)) = true := by
    decide +kernel
  obtain ⟨registry, declared, parses⟩ := exists_of_yields compiles
  obtain ⟨unit, parsed, checks⟩ := exists_of_yields parses
  obtain ⟨checked, accepted, plans⟩ := exists_of_yields checks
  obtain ⟨plan, planned, decided⟩ := exists_of_yields plans
  rw [Bool.and_eq_true, decide_eq_true_eq] at decided
  have static := unit.root.static_of_isStatic decided.1
  refine ⟨registry, unit, checked, plan, declared, parsed, static, accepted, planned, ?_⟩
  intro scope
  obtain ⟨text, direct, written⟩ := written_document_is_direct static accepted planned scope
  rw [written, Option.some.inj (direct.symm.trans decided.2)]

end TypedMarkup
