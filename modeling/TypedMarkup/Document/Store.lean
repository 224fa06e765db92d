import TypedMarkup.Document.Element

/-!
Contract: named values among which elements are changed in place.

Owns: `Store`. An element that is stored has an identity. When it is changed, it is changed
wherever it occurs in the stored values.
-/

namespace TypedMarkup

mutual

/-- A value with an element put in place of every element that has its identity. -/
def Value.refresh (identity : Identity) (changed : Element) : Value → Value
  | .list items => .list (refreshAll identity changed items)
  | .tuple items => .tuple (refreshAll identity changed items)
  | .dict entries => .dict (refreshEntries identity changed entries)
  | .spaced container items => .spaced container (refreshAll identity changed items)
  | .node node => .node (node.refresh identity changed)
  | .record fields own => .record (refreshFields identity changed fields) own
  | .function name result own => .function name (result.refresh identity changed) own
  | .stream items start finish own =>
    .stream (refreshAll identity changed items) start finish own
  | other => other

def refreshAll (identity : Identity) (changed : Element) : List Value → List Value
  | [] => []
  | value :: rest => value.refresh identity changed :: refreshAll identity changed rest

def refreshEntries (identity : Identity) (changed : Element) :
    List (Value × Value) → List (Value × Value)
  | [] => []
  | entry :: rest => refreshEntry identity changed entry :: refreshEntries identity changed rest

def refreshEntry (identity : Identity) (changed : Element) : Value × Value → Value × Value
  | (key, value) => (key.refresh identity changed, value.refresh identity changed)

def refreshFields (identity : Identity) (changed : Element) :
    List (String × Value) → List (String × Value)
  | [] => []
  | entry :: rest => refreshField identity changed entry :: refreshFields identity changed rest

def refreshField (identity : Identity) (changed : Element) : String × Value → String × Value
  | (name, value) => (name, value.refresh identity changed)

def Document.Node.refresh (identity : Identity) (changed : Element) : Document.Node → Document.Node
  | .element element => .element (refreshElement identity changed element)
  | .text value => .text value
  | .verbatim value => .verbatim value
  | .foreign value => .foreign (value.refresh identity changed)

def refreshElement (identity : Identity) (changed : Element) :
    Document.ElementOf Value Document.Node → Document.ElementOf Value Document.Node
  | ⟨schema, output, slots, data, handlers, required, optional, own⟩ =>
    if own = some identity then changed
    else ⟨schema, output, refreshFields identity changed slots, data, handlers,
      refreshNodes identity changed required, refreshNodes identity changed optional, own⟩

def refreshNodes (identity : Identity) (changed : Element) : List Document.Node → List Document.Node
  | [] => []
  | node :: rest => node.refresh identity changed :: refreshNodes identity changed rest

end

/-- Values by name, and the number of the next identity. -/
structure Store where
  values : Table Value
  next : Nat

namespace Store

def empty : Store := ⟨[], 0⟩

/-- Stores a value. An element without an identity gets one. -/
def put (store : Store) (name : String) (value : Value) : Store :=
  match value with
  | .node (.element element) =>
    match element.identity with
    | some _ => { store with values := store.values.put name value }
    | none =>
      { values := store.values.put name
          (.node (.element { element with identity := some (.given store.next) }))
        next := store.next + 1 }
  | other => { store with values := store.values.put name other }

def get? (store : Store) (name : String) : Option Value :=
  store.values.get? name

def element? (store : Store) (name : String) : Option Element :=
  match store.get? name with
  | some (.node (.element element)) => some element
  | _ => none

/-- Puts a changed element in place wherever it occurs. -/
def change (store : Store) (changed : Element) : Store :=
  match changed.identity with
  | some identity => { store with values := refreshFields identity changed store.values }
  | none => store

end Store

end TypedMarkup
