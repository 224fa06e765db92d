import TypedMarkup.Document.Element

/-!
Contract: the untyped view of a document, for adapters that build live trees.

Owns: `View`, `Document.Node.view` and `Document.Node.viewed`.
-/

namespace TypedMarkup

inductive View where
  | text (value : String)
  | verbatim (value : String)
  | element (name : String) (attributes : List (String × String))
      (handlers : List (Document.Handler Value)) (children : List View)

mutual

def Document.Node.view : Document.Node → View
  | .text value => .text value
  | .verbatim value => .verbatim value
  | .foreign value => .text value.display
  | .element element => viewElement element

def viewElement : Document.ElementOf Value Document.Node → View
  | ⟨schema, output, slots, data, handlers, required, optional, identity⟩ =>
    let element : Element :=
      ⟨schema, output, slots, data, handlers, required, optional, identity⟩
    .element element.name element.attributePairs element.orderedHandlers
      (viewAll required ++ viewAll optional)

def viewAll : List Document.Node → List View
  | [] => []
  | node :: rest => node.view :: viewAll rest

end

def Document.Node.viewed (node : Document.Node) : Except Failure View :=
  unlessObstructed (node.obstacle? "vnode") node.view

end TypedMarkup
