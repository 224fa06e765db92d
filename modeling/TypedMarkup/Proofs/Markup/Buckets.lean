import TypedMarkup.Markup.Checked
import TypedMarkup.Proofs.Success
import TypedMarkup.Proofs.Table

/-!
Contract: which attributes an element may have, and how they are divided.

Owns: the legal names of attributes, said without the functions that recognise them, and
`AttributeBuckets.Divides`: the three buckets of an element hold each of its attributes once, in the
order in which they are written.

A name that begins with `data-` or is the name of an event never counts as a declared attribute,
also where the schema declares its key.
-/

namespace TypedMarkup

open Markup

variable {name : String} {buckets : AttributeBuckets} {attributes : List Attribute}

/-- A name is `data-` and then at least one character. -/
def IsDataName (name rest : String) : Prop :=
  name = "data-" ++ rest ∧ rest ≠ ""

/-- A name is `on` and then an event. -/
def IsEventName (name event : String) : Prop :=
  name = "on" ++ event ∧ event ∈ events

/-- A name that an element of a schema may use for an attribute. -/
def IsLegalName (schema : Schema) (name : String) : Prop :=
  (∃ rest, IsDataName name rest) ∨ (∃ event, IsEventName name event) ∨
    ∃ type, (keyOf name, type) ∈ schema.attributes

/-- An attribute that is held to its declared type: its name has no other meaning. -/
structure TypedAttribute.Declared (found : TypedAttribute) (schema : Schema) : Prop where
  key : found.key = keyOf found.written.name
  type : schema.attributes.get? found.key = some found.type
  notData : ∀ rest, ¬ IsDataName found.written.name rest
  notEvent : ∀ event, ¬ IsEventName found.written.name event

/-- The buckets hold the attributes of an element: all of them, each once, and in each bucket in the
order of the element. -/
structure AttributeBuckets.Divides (buckets : AttributeBuckets) (schema : Schema)
    (attributes : List Markup.Attribute) : Prop where
  complete : (buckets.typed.map TypedAttribute.written ++ (buckets.data.map Prod.snd ++
    buckets.events.map Prod.snd)).Perm attributes
  typedOrder : (buckets.typed.map TypedAttribute.written).Sublist attributes
  dataOrder : (buckets.data.map Prod.snd).Sublist attributes
  eventOrder : (buckets.events.map Prod.snd).Sublist attributes
  typed : ∀ found ∈ buckets.typed, found.Declared schema
  data : ∀ entry ∈ buckets.data, IsDataName entry.2.name entry.1
  events : ∀ entry ∈ buckets.events, IsEventName entry.2.name entry.1

/-! ## The recognised names are the legal ones -/

theorem dataNameOf?_eq_some {rest : String} :
    dataNameOf? name = some rest ↔ IsDataName name rest := by
  unfold IsDataName
  rw [← String.toList_inj, String.toList_append]
  unfold dataNameOf?
  split
  · next first more spelled =>
    rw [spelled, Option.some_inj]
    constructor
    · rintro rfl
      simp
    · rintro ⟨same, -⟩
      rw [← String.toList_inj]
      simpa using same
  · next other =>
    constructor
    · simp
    · rintro ⟨same, nonempty⟩
      cases characters : rest.toList with
      | nil => exact absurd (String.toList_inj.mp (by simpa using characters)) nonempty
      | cons first more =>
        rw [characters] at same
        exact absurd same (other first more)

theorem eventOf?_eq_some {event : String} :
    eventOf? name = some event ↔ IsEventName name event := by
  unfold IsEventName
  rw [← String.toList_inj, String.toList_append]
  unfold eventOf?
  split
  · next rest spelled =>
    rw [spelled]
    constructor
    · intro found
      split at found
      · next known =>
        cases found
        exact ⟨by simp, by simpa using known⟩
      · cases found
    · rintro ⟨same, known⟩
      have spelledEvent : String.ofList rest = event := by
        rw [← String.toList_inj]
        simpa using same
      rw [spelledEvent, if_pos (by simpa using known)]
  · next other =>
    constructor
    · simp
    · rintro ⟨same, -⟩
      exact absurd same (other event.toList)

theorem attributeType?_eq_none {schema : Schema} :
    schema.attributeType? name = none ↔ ¬ ∃ type, (keyOf name, type) ∈ schema.attributes := by
  unfold Schema.attributeType? Table.get?
  rw [List.lookup_eq_none_iff]
  constructor
  · rintro absent ⟨type, member⟩
    simpa using absent _ member
  · intro absent entry member
    simp only [bne_iff_ne, ne_eq]
    rintro same
    exact absent ⟨entry.2, same ▸ member⟩

/-! ## Dividing attributes -/

section

variable {source : String} {tag : Tag} {schema : Schema}

/-- What dividing one more attribute does: it stands in front of one of the three buckets, as its
name says. -/
theorem sortAttributes_cons_eq_ok {found : Attribute} {rest : List Attribute}
    (sorted : sortAttributes source tag schema (found :: rest) = .ok buckets) :
    ∃ others, sortAttributes source tag schema rest = .ok others ∧
      ((∃ name, IsDataName found.name name ∧
          buckets = { others with data := (name, found) :: others.data }) ∨
        (∃ event, IsEventName found.name event ∧
          buckets = { others with events := (event, found) :: others.events }) ∨
        ∃ typed : TypedAttribute, typed.written = found ∧ typed.Declared schema ∧
          buckets = { others with typed := typed :: others.typed }) := by
  unfold sortAttributes at sorted
  split at sorted
  · next name isData =>
    obtain ⟨others, restSorted, same⟩ := bind_eq_ok.mp sorted
    exact ⟨others, restSorted,
      .inl ⟨name, dataNameOf?_eq_some.mp isData, (pure_eq_ok.mp same).symm⟩⟩
  · next event _ isEvent =>
    obtain ⟨others, restSorted, same⟩ := bind_eq_ok.mp sorted
    exact ⟨others, restSorted,
      .inr (.inl ⟨event, eventOf?_eq_some.mp isEvent, (pure_eq_ok.mp same).symm⟩)⟩
  · next notData notEvent =>
    split at sorted
    · cases sorted
    · next type declared =>
      obtain ⟨others, restSorted, same⟩ := bind_eq_ok.mp sorted
      refine ⟨others, restSorted, .inr (.inr ⟨⟨found, keyOf found.name, type⟩, rfl, ?_,
        (pure_eq_ok.mp same).symm⟩)⟩
      refine ⟨rfl, declared, ?_, ?_⟩
      · intro name isData
        rw [dataNameOf?_eq_some.mpr isData] at notData
        cases notData
      · intro event isEvent
        rw [eventOf?_eq_some.mpr isEvent] at notEvent
        cases notEvent

/-- The attributes of an element are divided without loss, repetition or change of order. -/
theorem sortAttributes_divides
    (sorted : sortAttributes source tag schema attributes = .ok buckets) :
    buckets.Divides schema attributes := by
  induction attributes generalizing buckets with
  | nil =>
    cases sorted
    constructor <;> simp
  | cons found rest ih =>
    obtain ⟨others, restSorted, placed⟩ := sortAttributes_cons_eq_ok sorted
    have divided := ih restSorted
    rcases placed with ⟨name, isData, rfl⟩ | ⟨event, isEvent, rfl⟩ | ⟨typed, rfl, declared, rfl⟩
    · refine ⟨?_, divided.typedOrder.cons found, divided.dataOrder.cons_cons found,
        divided.eventOrder.cons found, divided.typed, ?_, divided.events⟩
      · exact List.perm_middle.trans (divided.complete.cons found)
      · exact List.forall_mem_cons.mpr ⟨isData, divided.data⟩
    · refine ⟨?_, divided.typedOrder.cons found, divided.dataOrder.cons found,
        divided.eventOrder.cons_cons found, divided.typed, divided.data, ?_⟩
      · have complete := divided.complete
        rw [← List.append_assoc] at complete ⊢
        exact List.perm_middle.trans (complete.cons found)
      · exact List.forall_mem_cons.mpr ⟨isEvent, divided.events⟩
    · refine ⟨divided.complete.cons typed.written, divided.typedOrder.cons_cons typed.written,
        divided.dataOrder.cons typed.written, divided.eventOrder.cons typed.written, ?_,
        divided.data, divided.events⟩
      exact List.forall_mem_cons.mpr ⟨declared, divided.typed⟩

theorem AttributeBuckets.Divides.legal (divided : buckets.Divides schema attributes) :
    ∀ found ∈ attributes, IsLegalName schema found.name := by
  intro found member
  have placed := divided.complete.mem_iff.mpr member
  simp only [List.mem_append, List.mem_map] at placed
  rcases placed with ⟨typed, inTyped, rfl⟩ | ⟨entry, inData, rfl⟩ | ⟨entry, inEvents, rfl⟩
  · have declared := divided.typed typed inTyped
    exact .inr (.inr ⟨typed.type, declared.key ▸ Table.mem_of_get? declared.type⟩)
  · exact .inl ⟨entry.1, divided.data entry inData⟩
  · exact .inr (.inl ⟨entry.1, divided.events entry inEvents⟩)

/-- Attributes with legal names can be divided. -/
theorem sortAttributes_of_legal (source : String) (tag : Tag)
    (legal : ∀ found ∈ attributes, IsLegalName schema found.name) :
    ∃ buckets, sortAttributes source tag schema attributes = .ok buckets := by
  induction attributes with
  | nil => exact ⟨_, rfl⟩
  | cons found rest ih =>
    obtain ⟨foundLegal, restLegal⟩ := List.forall_mem_cons.mp legal
    obtain ⟨others, restSorted⟩ := ih restLegal
    unfold sortAttributes
    split
    · exact ⟨_, bind_eq_ok.mpr ⟨others, restSorted, rfl⟩⟩
    · exact ⟨_, bind_eq_ok.mpr ⟨others, restSorted, rfl⟩⟩
    · next notData notEvent =>
      split
      · next undeclared =>
        rcases foundLegal with ⟨name, isData⟩ | ⟨event, isEvent⟩ | declared
        · rw [dataNameOf?_eq_some.mpr isData] at notData
          cases notData
        · rw [eventOf?_eq_some.mpr isEvent] at notEvent
          cases notEvent
        · exact absurd declared (attributeType?_eq_none.mp undeclared)
      · exact ⟨_, bind_eq_ok.mpr ⟨others, restSorted, rfl⟩⟩

end

end TypedMarkup
