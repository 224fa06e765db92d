import TypedMarkup.Document.Element

/-!
Contract: which documents keep to their schemas.

Owns: `AttributeType.Admits`, the values of a type, and `Document.Node.Valid`, the rules of the
schemas for a document at every depth. Both are said without the functions that read, fit and check.
-/

namespace TypedMarkup

def CheckedText.Made (kind : CheckedText) (value : Value) : Prop :=
  ∃ argument, Host.checkedOf kind argument = .ok value

/-- The values of a type. Every kind of text is a string. -/
def AttributeType.Admits : AttributeType → Value → Prop
  | string _, value => value.content?.isSome
  | bool, value => ∃ truth, value = .bool truth
  | integer unsigned, value => ∃ number, value = .int number ∧ (unsigned = true → 0 ≤ number)
  | real, value => ∃ number identity, value = .real number identity
  | vocabulary words, value => ∃ word ∈ words.members, value = .member word
  | checked kind, value => kind.Made value
  | spaced container item, value =>
    ∃ items, value = .spaced container items ∧ ∀ found ∈ items, item.Admits found

namespace Document

/-- A handler is what its output type asks for: program text, or something that can be called. -/
def Handler.Suits (handler : Handler Value) : Prop :=
  match handler.output with
  | .string => handler.value.content?.isSome
  | .dom => handler.value.isCallable = true

def Node.schemaName? : Node → Option String
  | .element found => some found.schema.name
  | _ => none

/-- An element keeps to its schema, whatever its children are like inside. -/
structure ElementOf.KeepsSchema (element : Element) : Prop where
  required : element.required.map Node.schemaName? = element.schema.required.map some
  optional : ∀ child ∈ element.optional, ∃ constraint,
    element.schema.constraint = some constraint ∧ constraint ∈ child.tags
  attributes : ∀ slot ∈ element.slots, slot.2 = .none ∨
    ∃ type, element.schema.attributes.get? slot.1 = some type ∧ type.Admits slot.2
  handlers : ∀ entry ∈ element.handlers, entry.2.Suits

/-- Every element of a document keeps to its schema. -/
inductive Node.Valid : Node → Prop where
  | text (value : String) : Valid (.text value)
  | verbatim (value : String) : Valid (.verbatim value)
  | element {element : Element} (keepsSchema : element.KeepsSchema)
      (required : ∀ child ∈ element.required, Valid child)
      (optional : ∀ child ∈ element.optional, Valid child) : Valid (.element element)

end Document

end TypedMarkup
