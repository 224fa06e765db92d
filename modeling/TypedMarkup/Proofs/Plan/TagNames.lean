import TypedMarkup.Proofs.Plan.Growth

/-!
Contract: no start tag repeats an attribute.

Owns: `Document.ElementOf.startTag`, the attributes that a start tag is written from, and the
theorem that their names are different in every element that a unit writes down, also where a schema
declares names that look like data attributes or handlers.

Typed attributes, data attributes and handlers are kept in tables of their own and written one table
after the other, and the names of typed attributes are changed on the way in and on the way out. The
changes never lose the key of a name. So every name in the start tag has the key of the attribute
that it comes from, and the attributes of a tag have different keys.
-/

namespace TypedMarkup

open Markup

/-! ## Start tags as lists -/

def SlotText.value? : SlotText → Option String
  | absent => none
  | bare => none
  | text value => some value

namespace Document.ElementOf

/-- The handlers that are written, by their events. -/
def printedHandlers (element : Element) : List (String × String) :=
  events.filterMap fun event =>
    ((element.handlers.lookup event).bind Document.Handler.text?).map fun text => (event, text)

/-- The attributes of a start tag as they are written: typed ones, a switch without a value, then
data attributes, then handlers. -/
def startTag (element : Element) : List (String × Option String) :=
  (writtenSlots (slotTexts element.slots)).map (fun slot => (dashed slot.1, slot.2.value?)) ++
    (element.data.map (fun entry => ("data-" ++ entry.1, some entry.2)) ++
      element.printedHandlers.map fun entry => ("on" ++ entry.1, some entry.2))

end Document.ElementOf

/-- How an attribute stands in a start tag. -/
def attributeMarkup (entry : String × Option String) : String :=
  match entry.2 with
  | none => " " ++ entry.1
  | some value => Direct.valued entry.1 value

/-- The names in the start tag of an element are different, even if dashes and underscores are not
told apart. -/
structure Document.ElementOf.NamesApart (element : Element) : Prop where
  written : (Document.Node.element element).render = elementMarkup element.schema
    (String.join (element.startTag.map attributeMarkup)) (element.children.map Document.Node.render)
  distinct : (element.startTag.map Prod.fst).Nodup
  keysDistinct : (element.startTag.map fun entry => keyOf entry.1).Nodup

theorem slotsMarkup_eq_attributes (slots : List (String × SlotText)) :
    slotsMarkup slots = String.join (((writtenSlots slots).map fun slot =>
      (dashed slot.1, slot.2.value?)).map attributeMarkup) := by
  rw [slotsMarkup_eq_join, List.map_map]
  refine congrArg String.join (List.map_congr_left ?_)
  rintro ⟨key, text⟩ member
  cases text with
  | absent => cases (List.mem_filter.mp member).2
  | bare => rfl
  | text value => rfl

theorem dataMarkup_eq_attributes (data : List (String × String)) :
    dataMarkup data = String.join ((data.map fun entry =>
      ("data-" ++ entry.1, some entry.2)).map attributeMarkup) := by
  rw [dataMarkup, List.map_map]
  refine congrArg String.join (List.map_congr_left ?_)
  intro entry _
  exact (Direct.valued_data entry.1 entry.2).symm

theorem handlersMarkup_eq_attributes (element : Element) :
    handlersMarkup element.handlers = String.join ((element.printedHandlers.map fun entry =>
      ("on" ++ entry.1, some entry.2)).map attributeMarkup) := by
  rw [handlersMarkup, Document.ElementOf.printedHandlers]
  -- Nothing is known of the events but that they are a list.
  induction events with
  | nil => rfl
  | cons event rest ih =>
    rw [List.map_cons, String.join_cons, ih, List.filterMap_cons]
    cases (element.handlers.lookup event).bind Document.Handler.text? with
    | none => exact String.empty_append
    | some text =>
      simp only [Option.map_some, List.map_cons, String.join_cons, attributeMarkup,
        Direct.valued_handler]

theorem render_eq_startTag (element : Element) :
    (Document.Node.element element).render = elementMarkup element.schema
      (String.join (element.startTag.map attributeMarkup))
      (element.children.map Document.Node.render) := by
  rw [Document.ElementOf.startTag, List.map_append, List.map_append, String.join_append,
    String.join_append, ← slotsMarkup_eq_attributes, ← dataMarkup_eq_attributes,
    ← handlersMarkup_eq_attributes, ← String.append_assoc, Document.ElementOf.children,
    List.map_append, ← renderAll_eq_map, ← renderAll_eq_map, Document.Node.render, renderElement]

/-! ## Keys -/

/-- Different names of one kind, each of which is written with the key of an attribute. The kind
says what the name of the attribute has to do with the name. -/
structure Traced (attributes : List Attribute) (kind : String → String → Prop)
    (written : String → String) (names : List String) : Prop where
  nodup : names.Nodup
  origin : ∀ name ∈ names, ∃ found ∈ attributes, kind found.name name ∧
    keyOf (written name) = keyOf found.name

section

variable {attributes : List Attribute} {kind otherKind : String → String → Prop}
  {written otherWritten : String → String} {names others : List String}

section

variable (unique : (attributes.map fun found => keyOf found.name).Nodup)
  (traced : Traced attributes kind written names)

include unique traced

theorem Traced.exists_common (otherTraced : Traced attributes otherKind otherWritten others)
    {name other : String} (member : name ∈ names) (otherMember : other ∈ others)
    (sameKey : keyOf (written name) = keyOf (otherWritten other)) :
    ∃ found : Attribute, kind found.name name ∧ otherKind found.name other := by
  obtain ⟨found, isFound, isKind, key⟩ := traced.origin name member
  obtain ⟨second, isSecond, isOtherKind, otherKey⟩ := otherTraced.origin other otherMember
  have same : found = second :=
    List.inj_on_of_nodup_map unique isFound isSecond (key.symm.trans (sameKey.trans otherKey))
  exact ⟨found, isKind, same ▸ isOtherKind⟩

theorem Traced.nodup_keys
    (functional : ∀ found name other, kind found name → kind found other → name = other) :
    (names.map fun name => keyOf (written name)).Nodup := by
  refine traced.nodup.map_on ?_
  intro name member other otherMember sameKey
  obtain ⟨found, isKind, isOtherKind⟩ :=
    traced.exists_common unique traced member otherMember sameKey
  exact functional found.name name other isKind isOtherKind

theorem Traced.disjoint_keys (otherTraced : Traced attributes otherKind otherWritten others)
    (exclusive : ∀ found name other, kind found name → ¬ otherKind found other) :
    List.Disjoint (names.map fun name => keyOf (written name))
      (others.map fun name => keyOf (otherWritten name)) := by
  rintro key inFirst inSecond
  obtain ⟨name, member, rfl⟩ := List.mem_map.mp inFirst
  obtain ⟨other, otherMember, sameKey⟩ := List.mem_map.mp inSecond
  obtain ⟨found, isKind, isOtherKind⟩ :=
    traced.exists_common unique otherTraced member otherMember sameKey.symm
  exact exclusive found.name name other isKind isOtherKind

end

end

/-! ## Where the names of a start tag come from -/

section

variable {scope : Scope} {attributes : List Attribute} {element : Element}

theorem Begins.traced_slots (begins : Begins scope attributes element) :
    Traced attributes IsTypedName dashed
      ((writtenSlots (slotTexts element.slots)).map Prod.fst) := by
  obtain ⟨values, matched, written⟩ := begins.slots
  have unset : ∀ slot ∈ element.schema.attributes.map fun entry => (entry.1, Value.none),
      slot.2 = Value.none :=
    List.forall_mem_map.mpr fun _ _ => rfl
  have origin : ∀ slot ∈ element.slots, IsWritten slot →
      ∃ found ∈ attributes, IsTypedName found.name slot.1 := by
    rw [written]
    refine Table.forall_mem_putAll ?_ ?_
    · intro slot member _
      obtain ⟨⟨_, found⟩, isEntry, sameName, -⟩ := exists_left_of_mem matched member
      cases sameName
      obtain ⟨isFound, isTyped⟩ := Direct.mem_typedEntries.mp isEntry
      exact ⟨found, isFound, isTyped⟩
    · intro slot member isWritten
      obtain ⟨key, value⟩ := slot
      cases unset _ member
      exact absurd rfl isWritten
  constructor
  · have unrepeated := (unrepeated_of_none unset).putAll values
    rw [← written] at unrepeated
    rw [List.nodup_iff_pairwise_ne, List.pairwise_map]
    exact unrepeated.ascending.imp fun below => String.ne_of_lt below
  · intro key named
    obtain ⟨_, member, rfl⟩ := List.mem_map.mp named
    obtain ⟨slot, isSlot, isWritten, rfl⟩ := mem_writtenSlots.mp member
    obtain ⟨found, isFound, isTyped⟩ := origin slot isSlot isWritten
    rw [slotText_fst]
    exact ⟨found, isFound, isTyped, by rw [keyOf_dashed, isTyped.1, keyOf_keyOf]⟩

theorem Begins.traced_data (begins : Begins scope attributes element) :
    Traced attributes IsDataName (fun name => "data-" ++ name) (element.data.map Prod.fst) := by
  obtain ⟨texts, matched, written⟩ := begins.data
  rw [written]
  constructor
  · have nodup := Table.nodup_distinct_names texts
    rwa [← Table.names_putAll_nil] at nodup
  · refine List.forall_mem_map.mpr (Table.forall_mem_putAll ?_ (List.forall_mem_nil _))
    intro entry member
    obtain ⟨⟨_, found⟩, isEntry, sameName, -⟩ := exists_left_of_mem matched member
    cases sameName
    obtain ⟨isFound, isData⟩ := Direct.mem_dataEntries.mp isEntry
    exact ⟨found, isFound, isData, by rw [isData.1]⟩

theorem nodup_events : events.Nodup := by
  decide +kernel

theorem Begins.traced_handlers (begins : Begins scope attributes element) :
    Traced attributes IsEventName (fun event => "on" ++ event)
      (element.printedHandlers.map Prod.fst) := by
  obtain ⟨bound, matched, written⟩ := begins.handlers
  have origin : ∀ entry ∈ element.handlers,
      ∃ found ∈ attributes, IsEventName found.name entry.1 := by
    rw [written]
    refine Table.forall_mem_putAll ?_ (List.forall_mem_nil _)
    intro entry member
    obtain ⟨⟨_, found⟩, isEntry, sameName, -⟩ := exists_left_of_mem matched member
    cases sameName
    exact ⟨found, Direct.mem_eventEntries.mp isEntry⟩
  constructor
  · have printedEvents : (element.printedHandlers.map Prod.fst).Sublist events := by
      rw [Document.ElementOf.printedHandlers]
      induction events with
      | nil => exact .slnil
      | cons event rest ih =>
        rw [List.filterMap_cons]
        cases (element.handlers.lookup event).bind Document.Handler.text? with
        | none => exact ih.cons event
        | some text => exact ih.cons_cons event
    exact printedEvents.nodup nodup_events
  · refine List.forall_mem_map.mpr ?_
    intro entry member
    obtain ⟨event, _, text, printed, rfl⟩ := by
      simpa only [Document.ElementOf.printedHandlers, List.mem_filterMap, Option.map_eq_some_iff]
        using member
    obtain ⟨handler, looked, -⟩ := Option.bind_eq_some_iff.mp printed
    obtain ⟨found, isFound, isEvent⟩ := origin _ (Table.mem_of_get? looked)
    exact ⟨found, isFound, isEvent, by rw [isEvent.1]⟩

/-- An element that has what its attributes come to does not repeat a name in its start tag, if the
attributes have different keys. -/
theorem Begins.namesApart (begins : Begins scope attributes element)
    (unique : (attributes.map fun found => keyOf found.name).Nodup) : element.NamesApart := by
  have typed := begins.traced_slots
  have data := begins.traced_data
  have handlers := begins.traced_handlers
  have keysDistinct : (element.startTag.map fun entry => keyOf entry.1).Nodup := by
    have parts : (element.startTag.map fun entry => keyOf entry.1) =
        ((writtenSlots (slotTexts element.slots)).map Prod.fst).map
          (fun key => keyOf (dashed key)) ++
          ((element.data.map Prod.fst).map (fun name => keyOf ("data-" ++ name)) ++
            (element.printedHandlers.map Prod.fst).map fun event => keyOf ("on" ++ event)) := by
      simp only [Document.ElementOf.startTag, List.map_append, List.map_map, Function.comp_def]
    rw [parts, List.nodup_append', List.nodup_append', List.disjoint_append_right]
    refine ⟨typed.nodup_keys unique ?_, ⟨data.nodup_keys unique ?_, handlers.nodup_keys unique ?_,
      data.disjoint_keys unique handlers ?_⟩, typed.disjoint_keys unique data ?_,
      typed.disjoint_keys unique handlers ?_⟩
    · intro found name other isTyped isOther
      exact isTyped.1.trans isOther.1.symm
    · intro found name other isData isOther
      exact Option.some.inj
        ((dataNameOf?_eq_some.mpr isData).symm.trans (dataNameOf?_eq_some.mpr isOther))
    · intro found name other isEvent isOther
      exact Option.some.inj
        ((eventOf?_eq_some.mpr isEvent).symm.trans (eventOf?_eq_some.mpr isOther))
    · intro found name other isData isEvent
      cases (eventOf?_of_isDataName isData).symm.trans (eventOf?_eq_some.mpr isEvent)
    · intro found name other isTyped
      exact isTyped.2.1 other
    · intro found name other isTyped
      exact isTyped.2.2 other
  refine ⟨render_eq_startTag element, List.Nodup.of_map keyOf ?_, keysDistinct⟩
  rw [List.map_map]
  exact keysDistinct

end

/-- No start tag of a unit repeats an attribute: in every element that is written in the unit, the
names with which typed attributes, data attributes and handlers are written are different. -/
theorem start_tags_repeat_no_attribute {source : String} {registry : Registry}
    {requested : Option String} {plan : Plan} {scope : Scope} {node : Document.Node}
    (compiled : compile source registry requested = .ok plan)
    (built : plan.build scope = .ok node) :
    ∃ tokens tree, tokensOf source = .ok tokens ∧ UnitTree.tokens tree = tokens.toList ∧
      tree.root.Becomes (fun _ element => element.NamesApart) [node] := by
  obtain ⟨tokens, tree, tokenized, derives, becomes⟩ := exists_tree_becomes compiled built
  refine ⟨tokens, tree, tokenized, derives, becomes.imp ?_⟩
  intro attributes element begins
  exact Begins.namesApart begins (AttributeTree.nodup_keys_denotedAll attributes)

namespace Lookalikes

/-- An element whose own attributes look like a data attribute and like handlers. -/
def declarations : String :=
  "item \x7bdata_x: String, on_click: Bool, onclick: String\x7d in [FlowContent] with FlowContent"

def source : String :=
  "<item data_x=\"1\" data-y=\"2\" on-click=\"true\" onclick=\"go\" data-x=\"3\">" ++
    "<item data_x=\"4\" data-z=\"5\"/></item>"

end Lookalikes

theorem lookalikes_are_apart :
    ∃ registry plan node, Registry.ofSource Lookalikes.declarations = .ok registry ∧
      compile Lookalikes.source registry (some "String") = .ok plan ∧
      plan.build (.ofTable []) = .ok node ∧
      ∃ tokens tree, tokensOf Lookalikes.source = .ok tokens ∧
        UnitTree.tokens tree = tokens.toList ∧
        tree.root.Becomes (fun _ element => element.NamesApart) [node] := by
  have decided :
      isBuilt Lookalikes.declarations Lookalikes.source (some "String") (.ofTable []) = true := by
    decide +kernel
  obtain ⟨registry, plan, node, declared, compiled, built⟩ := exists_of_isBuilt decided
  exact ⟨registry, plan, node, declared, compiled, built,
    start_tags_repeat_no_attribute compiled built⟩

end TypedMarkup
