import Mathlib.Data.List.Sort
import TypedMarkup.Proofs.Markup.Buckets
import TypedMarkup.Schema.Fit

/-!
Contract: the written form of a tree, in one pass over the tree.

Owns: `Markup.Node.direct?`, which writes a tree as it stands: no checked tree, no plan and no
document is made on the way. It has no answer for a tree in which something is computed, for an
element that is not known, and for a literal that the type of its attribute does not read.

Where an attribute is written more than once, the last one counts, and a data attribute keeps its
first place.

Does not own: that anything else writes the same text.
-/

namespace TypedMarkup

def AttributeValue.literal? : AttributeValue → Option String
  | literal value _ _ _ => some value
  | expression _ => none

namespace Markup

namespace Direct

/-- The data attributes of an element with their names behind `data-`. -/
def dataEntries (attributes : List Attribute) : List (String × Attribute) :=
  attributes.filterMap fun found => (dataNameOf? found.name).map fun name => (name, found)

def eventEntries (attributes : List Attribute) : List (String × Attribute) :=
  attributes.filterMap fun found => (eventOf? found.name).map fun event => (event, found)

/-- The attributes of an element that are for nothing else, with their keys. -/
def typedEntries (attributes : List Attribute) : List (String × Attribute) :=
  attributes.filterMap fun found =>
    if (dataNameOf? found.name).isNone && (eventOf? found.name).isNone then
      some (keyOf found.name, found)
    else none

def last? (entries : List (String × Attribute)) (name : String) : Option Attribute :=
  entries.reverse.lookup name

def valued (name value : String) : String :=
  " " ++ name ++ "=\"" ++ Text.escapeAttribute value ++ "\""

theorem valued_data (name value : String) : valued ("data-" ++ name) value =
    " data-" ++ name ++ "=\"" ++ Text.escapeAttribute value ++ "\"" := by
  rw [valued, ← String.append_assoc]
  rfl

theorem valued_handler (event value : String) : valued ("on" ++ event) value =
    " on" ++ event ++ "=\"" ++ Text.escapeAttribute value ++ "\"" := by
  rw [valued, ← String.append_assoc]
  rfl

/-- A value of a type in a start tag: a true one is bare, and a false one is left out. -/
def typedText (key : String) : Value → String
  | .bool true => " " ++ dashed key
  | .bool false => ""
  | value => valued (dashed key) value.display

def ascending (names : List String) : List String :=
  names.insertionSort fun first second => ¬ second < first

/-- The typed attributes of a start tag, in ascending order of their keys. -/
def typedMarkup? (schema : Schema) (attributes : List Attribute) : Option (List String) :=
  (ascending (distinct ((typedEntries attributes).map Prod.fst))).mapM fun key => do
    let found ← last? (typedEntries attributes) key
    let literal ← found.value.literal?
    let type ← schema.attributes.get? key
    let value ← (type.parse literal).toOption
    return typedText key value

/-- The data attributes of a start tag, in the order of the source. -/
def dataMarkup? (attributes : List Attribute) : Option (List String) :=
  (distinct ((dataEntries attributes).map Prod.fst)).mapM fun name => do
    let found ← last? (dataEntries attributes) name
    let literal ← found.value.literal?
    return valued ("data-" ++ name) literal

/-- The handlers of a start tag, in the order of the events. -/
def handlerMarkup? (attributes : List Attribute) : Option (List String) :=
  events.mapM fun event =>
    match last? (eventEntries attributes) event with
    | none => some ""
    | some found => found.value.literal?.map (valued ("on" ++ event))

/-- What stands behind the name in a start tag. -/
def startTag? (schema : Schema) (attributes : List Attribute) : Option String := do
  let typed ← typedMarkup? schema attributes
  let data ← dataMarkup? attributes
  let handlers ← handlerMarkup? attributes
  return String.join typed ++ String.join data ++ String.join handlers

/-- Whether an element is written as one tag. -/
def IsSingle (schema : Schema) (children : List Node) : Prop :=
  (schema.required = [] ∧ schema.constraint = none) ∨
    (children = [] ∧ schema.name ∈ selfClosingElements)

instance (schema : Schema) (children : List Node) : Decidable (IsSingle schema children) :=
  haveI : Decidable (children = []) := decidable_of_iff _ List.isEmpty_iff
  inferInstanceAs (Decidable (_ ∨ _))

end Direct

open Direct

mutual

/-- The written form of a tree in which nothing is computed. -/
def Node.direct? (registry : Registry) : Node → Option String
  | .text value _ => some (Text.escapeContent value)
  | .block _ => none
  | .element tag children _ => do
    let schema ← registry.schema? (keyOf tag.name)
    let startTag ← startTag? schema tag.attributes
    let inside ← directAll? registry children
    let name := dashed tag.name
    if IsSingle schema children then return "<" ++ name ++ startTag ++ "/>"
    else return "<" ++ name ++ startTag ++ ">" ++ String.join inside ++ "</" ++ name ++ ">"

/-- The written forms of trees in a row. -/
def directAll? (registry : Registry) : List Node → Option (List String)
  | [] => some []
  | child :: rest => do
    let first ← child.direct? registry
    let more ← directAll? registry rest
    return first :: more

end

theorem directAll?_eq_mapM (registry : Registry) (nodes : List Node) :
    directAll? registry nodes = nodes.mapM (Node.direct? registry) := by
  induction nodes with
  | nil => rfl
  | cons node rest ih =>
    rw [directAll?, List.mapM_cons, ih]

end Markup

/-! ## The buckets of a checked element -/

section

open Markup Direct

variable {schema : Schema} {attributes : List Attribute} {buckets : AttributeBuckets}

theorem eventOf?_of_isDataName {name rest : String} (isData : IsDataName name rest) :
    eventOf? name = none := by
  rw [isData.1]
  simp [eventOf?]

theorem dataNameOf?_of_isEventName {name event : String} (isEvent : IsEventName name event) :
    dataNameOf? name = none := by
  rw [isEvent.1]
  simp [dataNameOf?]

theorem TypedAttribute.Declared.dataNameOf? {typed : TypedAttribute}
    (declared : typed.Declared schema) : Markup.dataNameOf? typed.written.name = none := by
  rw [Option.eq_none_iff_forall_ne_some]
  intro rest found
  exact declared.notData rest (dataNameOf?_eq_some.mp found)

theorem TypedAttribute.Declared.eventOf? {typed : TypedAttribute}
    (declared : typed.Declared schema) : TypedMarkup.eventOf? typed.written.name = none := by
  rw [Option.eq_none_iff_forall_ne_some]
  intro event found
  exact declared.notEvent event (eventOf?_eq_some.mp found)

/-- A part of a list, together with others that a test leaves, is all that the test picks. -/
theorem filterMap_eq_of_part {α β : Type} {pick : α → Option β} {part others whole : List α}
    (ordered : part.Sublist whole) (complete : (part ++ others).Perm whole)
    (left : ∀ item ∈ others, pick item = none) :
    whole.filterMap pick = part.filterMap pick := by
  have othersEmpty : others.filterMap pick = [] := List.filterMap_eq_nil_iff.mpr left
  have sameLength : (part.filterMap pick).length = (whole.filterMap pick).length := by
    have counted := (complete.filterMap pick).length_eq
    rwa [List.filterMap_append, othersEmpty, List.append_nil] at counted
  exact ((ordered.filterMap pick).eq_of_length sameLength).symm

theorem filterMap_map_snd {α β : Type} {pick : α → Option (β × α)} {bucket : List (β × α)}
    (picked : ∀ entry ∈ bucket, pick entry.2 = some entry) :
    (bucket.map Prod.snd).filterMap pick = bucket := by
  induction bucket with
  | nil => rfl
  | cons entry rest ih =>
    obtain ⟨here, further⟩ := List.forall_mem_cons.mp picked
    rw [List.map_cons, List.filterMap_cons, here, ih further]

theorem AttributeBuckets.Divides.dataEntries_eq (divided : buckets.Divides schema attributes) :
    dataEntries attributes = buckets.data := by
  have left : ∀ found ∈ buckets.typed.map TypedAttribute.written ++ buckets.events.map Prod.snd,
      ((dataNameOf? found.name).map fun name => (name, found)) = none := by
    intro found member
    simp only [List.mem_append, List.mem_map] at member
    rcases member with ⟨typed, inTyped, rfl⟩ | ⟨entry, inEvents, rfl⟩
    · rw [(divided.typed typed inTyped).dataNameOf?, Option.map_none]
    · rw [dataNameOf?_of_isEventName (divided.events entry inEvents), Option.map_none]
  have complete : (buckets.data.map Prod.snd ++ (buckets.typed.map TypedAttribute.written ++
      buckets.events.map Prod.snd)).Perm attributes := by
    refine List.Perm.trans ?_ divided.complete
    simp only [← List.append_assoc]
    exact List.perm_append_comm.append_right _
  rw [dataEntries, filterMap_eq_of_part divided.dataOrder complete left]
  apply filterMap_map_snd
  intro entry member
  rw [dataNameOf?_eq_some.mpr (divided.data entry member), Option.map_some]

theorem AttributeBuckets.Divides.eventEntries_eq (divided : buckets.Divides schema attributes) :
    eventEntries attributes = buckets.events := by
  have left : ∀ found ∈ buckets.typed.map TypedAttribute.written ++ buckets.data.map Prod.snd,
      ((eventOf? found.name).map fun event => (event, found)) = none := by
    intro found member
    simp only [List.mem_append, List.mem_map] at member
    rcases member with ⟨typed, inTyped, rfl⟩ | ⟨entry, inData, rfl⟩
    · rw [(divided.typed typed inTyped).eventOf?, Option.map_none]
    · rw [eventOf?_of_isDataName (divided.data entry inData), Option.map_none]
  have complete : (buckets.events.map Prod.snd ++ (buckets.typed.map TypedAttribute.written ++
      buckets.data.map Prod.snd)).Perm attributes := by
    refine List.Perm.trans ?_ divided.complete
    rw [← List.append_assoc (buckets.typed.map TypedAttribute.written)]
    exact List.perm_append_comm
  rw [eventEntries, filterMap_eq_of_part divided.eventOrder complete left]
  apply filterMap_map_snd
  intro entry member
  rw [eventOf?_eq_some.mpr (divided.events entry member), Option.map_some]

theorem AttributeBuckets.Divides.typedEntries_eq (divided : buckets.Divides schema attributes) :
    typedEntries attributes = buckets.typed.map fun typed => (typed.key, typed.written) := by
  have left : ∀ found ∈ buckets.data.map Prod.snd ++ buckets.events.map Prod.snd,
      (if (dataNameOf? found.name).isNone && (eventOf? found.name).isNone then
        some (keyOf found.name, found) else none) = none := by
    intro found member
    simp only [List.mem_append, List.mem_map] at member
    rcases member with ⟨entry, inData, rfl⟩ | ⟨entry, inEvents, rfl⟩
    · simp [dataNameOf?_eq_some.mpr (divided.data entry inData)]
    · simp [eventOf?_eq_some.mpr (divided.events entry inEvents)]
  rw [typedEntries, filterMap_eq_of_part divided.typedOrder divided.complete left,
    List.filterMap_map, List.filterMap_eq_map_iff_forall_eq_some]
  intro typed member
  have declared := divided.typed typed member
  simp [declared.dataNameOf?, declared.eventOf?, declared.key]

end

end TypedMarkup
