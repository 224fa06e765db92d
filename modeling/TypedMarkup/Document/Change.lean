import TypedMarkup.Document.Element

/-!
Contract: changes of an element, one after another.

Owns: `Change`, the operations on an element with their arguments, `Change.apply`, how one of them
leaves an element, and `ElementOf.after`, how several of them do. A change that fails does not stop
those behind it.

A change that fails leaves the element as it was. Only one that adds several children keeps those
that it has added before it fails.
-/

namespace TypedMarkup.Document

/-- Values that are handed over one at a time, and the failure that ends them, if one does. -/
structure Supply where
  items : List Value
  finish : Option Failure

/-- The changes of an element. A value that is fitted comes with the memory in which its iterations
go on. -/
inductive Change where
  | setAttribute (name : String) (value : Value)
  | parseAttribute (name literal : String)
  | coerceAttribute (name : String) (value : Value) (memory : Host.Memory)
  | setData (name value : String)
  | setHandler (handler : Handler Value)
  | setRequired (children : Supply)
  | append (child : Value)
  | extend (children : Supply)

/-- How a change leaves an element, and why it failed, if it did. -/
structure Outcome where
  element : Element
  failure : Option Failure

def Outcome.ofWhole (element : Element) : Except Failure Element → Outcome
  | .ok changed => ⟨changed, none⟩
  | .error failure => ⟨element, some failure⟩

/-- Adds the children of a supply one by one, up to the first that is refused or the failure of the
supply. -/
def ElementOf.extendFrom (element : Element) (children : Supply) : Outcome :=
  match element.extend children.items with
  | (extended, some refusal) => ⟨extended, some (.refused refusal)⟩
  | (extended, none) => ⟨extended, children.finish⟩

def ElementOf.setRequiredFrom (element : Element) (children : Supply) : Except Failure Element :=
  match children.finish with
  | some failure => .error failure
  | none => (element.setRequired children.items).mapError .refused

def Change.apply (element : Element) : Change → Outcome
  | setAttribute name value =>
    .ofWhole element ((element.setAttribute name value).mapError .refused)
  | parseAttribute name literal => .ofWhole element (element.parseAttribute name literal)
  | coerceAttribute name value memory =>
    .ofWhole element ((element.coerceAttribute name value).run' memory)
  | setData name value => ⟨element.setData name value, none⟩
  | setHandler handler => ⟨element.setHandler handler, none⟩
  | setRequired children => .ofWhole element (element.setRequiredFrom children)
  | append child => .ofWhole element ((element.append child).mapError .refused)
  | extend children => element.extendFrom children

def ElementOf.after (element : Element) (changes : List Change) : Element :=
  changes.foldl (fun reached change => (change.apply reached).element) element

end TypedMarkup.Document
