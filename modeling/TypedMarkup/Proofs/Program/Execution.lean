import Mathlib.Logic.Function.Basic
import TypedMarkup.Document.Element
import TypedMarkup.Host.Display
import TypedMarkup.Plan.Splice
import TypedMarkup.Program.Basic

/-!
Contract: what running a construction program does.

Owns: `Program.Heap`, the variables of a running program, `Statement.run`, which carries out one
statement or stops, and `Heap.Reads`, the trees that are found when references are followed. A
parent holds its children by reference, so an element that is changed after it was added is changed
below its parent too.

Every check of an element is the one of `Document.ElementOf`. Host code has the value that its
expression has among the names of a scope.

Does not own: the look-ups of names before the first statement.
-/

namespace TypedMarkup.Program

/-- A child of an element in memory: a variable, or a node that no statement can change. -/
inductive Reference where
  | made (index : Nat)
  | node (node : Document.Node)

def Operand.reference : Operand → Reference
  | made index => .made index
  | text value => .node (.text value)

/-- An element in memory: its own part, which has no children, and references to the children. -/
structure Object where
  own : Element
  required : List Reference
  optional : List Reference

namespace Object

def whole (object : Object) (required optional : List Document.Node) : Element :=
  { object.own with required := required, optional := optional }

/-- Sets the required children, if the element takes the nodes that are seen there. -/
def setRequired (object : Object) (references : List Reference) (seen : List Document.Node) :
    Option Object :=
  (object.own.setRequired (seen.map .node)).toOption.map fun _ =>
    { object with required := references }

/-- Adds an optional child, if the element takes the node that is seen there. -/
def append (object : Object) (reference : Reference) (seen : Document.Node) : Option Object :=
  (object.own.append (.node seen)).toOption.map fun _ =>
    { object with optional := object.optional ++ [reference] }

/-- Adds the nodes of a block, if the element takes all of them and nothing else ends them. -/
def extend (object : Object) (spliced : Spliced) : Option Object :=
  match (object.own.extend (spliced.nodes.map .node)).2, spliced.finish with
  | none, none => some { object with optional := object.optional ++ spliced.nodes.map .node }
  | _, _ => none

end Object

/-- What a variable holds: an element that the program made, or a node that it was given. -/
inductive Held where
  | object (object : Object)
  | node (node : Document.Node)

/-- The variables of a running program. -/
abbrev Heap := Nat → Option Held

namespace Heap

def put (heap : Heap) (index : Nat) (held : Held) : Heap :=
  Function.update heap index (some held)

def change (heap : Heap) (index : Nat) (step : Object → Option Object) : Option Heap :=
  match heap index with
  | some (.object object) => (step object).map fun changed => heap.put index (.object changed)
  | _ => none

/-- Changes the own part of the object in a variable. -/
def changeOwn (heap : Heap) (index : Nat) (step : Element → Option Element) : Option Heap :=
  heap.change index fun object => (step object.own).map fun own => { object with own := own }

/-- A child as a parent sees it that checks its name and categories. -/
def seen? (heap : Heap) : Reference → Option Document.Node
  | .made index =>
    (heap index).map fun held =>
      match held with
      | .object object => .element object.own
      | .node node => node
  | .node node => some node

/-- The nodes that are found when references are followed to the end. -/
inductive Reads (heap : Heap) : List Reference → List Document.Node → Prop where
  | nil : Reads heap [] []
  | node {node : Document.Node} {references : List Reference} {nodes : List Document.Node}
      (rest : Reads heap references nodes) : Reads heap (.node node :: references) (node :: nodes)
  | given {index : Nat} {node : Document.Node} {references : List Reference}
      {nodes : List Document.Node} (held : heap index = some (.node node))
      (rest : Reads heap references nodes) : Reads heap (.made index :: references) (node :: nodes)
  | object {index : Nat} {object : Object} {required optional nodes : List Document.Node}
      {references : List Reference} (held : heap index = some (.object object))
      (requiredRead : Reads heap object.required required)
      (optionalRead : Reads heap object.optional optional)
      (rest : Reads heap references nodes) :
      Reads heap (.made index :: references) (.element (object.whole required optional) :: nodes)

end Heap

/-! ## Statements -/

def dataText? (scope : Scope) : TextSource → Option String
  | .literal written => some written
  | .expression code => do
    let found ← (code.evaluate scope).toOption
    found.value.shown.toOption

def handlerValue? (scope : Scope) : TextSource → Option Value
  | .literal written => some (.text written)
  | .expression code => (code.evaluate scope).toOption.map Evaluated.value

namespace Statement

section

variable (registry : Registry) (output : Option OutputType) (scope : Scope)

/-- Carries out a statement. There is no heap if it fails. -/
def run (heap : Heap) : Statement → Option Heap
  | create index schemaName => do
    let schema ← registry.schema? schemaName
    return heap.put index (.object ⟨.ofSchema schema output, [], []⟩)
  | parseAttribute index name literal =>
    heap.changeOwn index fun own => (own.parseAttribute name literal).toOption
  | coerceAttribute index name code => do
    let found ← (code.evaluate scope).toOption
    heap.changeOwn index fun own =>
      ((own.coerceAttribute name found.value).run' found.memory).toOption
  | setData index name source => do
    let text ← dataText? scope source
    heap.changeOwn index fun own => some (own.setData name text)
  | setEvent index event source => do
    let value ← handlerValue? scope source
    let target ← output
    let handler ← (Document.bindHandler target event value).toOption
    heap.changeOwn index fun own => some (own.setHandler handler)
  | setRequired index children => do
    let references := children.map Reference.made
    let nodes ← references.mapM heap.seen?
    heap.change index (·.setRequired references nodes)
  | append index child => do
    let node ← heap.seen? child.reference
    heap.change index (·.append child.reference node)
  | extend index code => do
    let found ← (code.evaluate scope).toOption
    heap.change index (·.extend (splice found code.span))
  | take index code => do
    let found ← (code.evaluate scope).toOption
    match splice found code.span with
    | ⟨[node], none⟩ => some (heap.put index (.node node))
    | _ => none

/-- Carries out statements in order. -/
def runAll (statements : List Statement) (heap : Heap) : Option Heap :=
  statements.foldlM (run registry output scope) heap

end

end Statement

end Program

/-- A program returns a tree: its statements can be carried out in order, beginning without any
variable, and its result leads to the tree then. -/
def Program.Returns (program : Program) (registry : Registry) (scope : Scope)
    (tree : Document.Node) : Prop :=
  ∃ heap, Program.Statement.runAll registry program.output scope program.statements
      (fun _ => none) = some heap ∧ heap.Reads [program.result.reference] [tree]

namespace Program

/-! ## Following references -/

namespace Heap

variable {heap after : Heap} {references : List Reference} {nodes : List Document.Node}

@[simp] theorem put_self (heap : Heap) (index : Nat) (held : Held) :
    heap.put index held index = some held :=
  Function.update_self ..

theorem put_of_ne {index other : Nat} (different : other ≠ index) (heap : Heap) (held : Held) :
    heap.put index held other = heap other :=
  Function.update_of_ne different ..

@[simp] theorem put_put (heap : Heap) (index : Nat) (first second : Held) :
    (heap.put index first).put index second = heap.put index second :=
  Function.update_idem ..

/-- References lead to one list of trees at most. -/
theorem Reads.unique (reads : heap.Reads references nodes) {others : List Document.Node}
    (again : heap.Reads references others) : others = nodes := by
  induction reads generalizing others with
  | nil =>
    cases again
    rfl
  | node _ restUnique =>
    cases again with
    | node rest => rw [restUnique rest]
  | given held _ restUnique =>
    cases again with
    | given heldAgain rest =>
      rw [held] at heldAgain
      cases heldAgain
      rw [restUnique rest]
    | object heldAgain =>
      rw [held] at heldAgain
      cases heldAgain
  | object held _ _ _ requiredUnique optionalUnique restUnique =>
    cases again with
    | given heldAgain =>
      rw [held] at heldAgain
      cases heldAgain
    | object heldAgain requiredAgain optionalAgain rest =>
      rw [held] at heldAgain
      cases heldAgain
      rw [requiredUnique requiredAgain, optionalUnique optionalAgain, restUnique rest]

/-- What can be read stays when variables are added. -/
theorem Reads.mono (reads : heap.Reads references nodes)
    (included : ∀ index held, heap index = some held → after index = some held) :
    after.Reads references nodes := by
  induction reads with
  | nil => exact .nil
  | node _ restReads => exact .node restReads
  | given held _ restReads => exact .given (included _ _ held) restReads
  | object held _ _ _ requiredReads optionalReads restReads =>
    exact .object (included _ _ held) requiredReads optionalReads restReads

theorem Reads.append (reads : heap.Reads references nodes) {further : List Reference}
    {more : List Document.Node} (furtherReads : heap.Reads further more) :
    heap.Reads (references ++ further) (nodes ++ more) := by
  induction reads with
  | nil => exact furtherReads
  | node _ restReads => exact .node restReads
  | given held _ restReads => exact .given held restReads
  | object held requiredReads optionalReads _ _ _ restReads =>
    exact .object held requiredReads optionalReads restReads

theorem reads_map_node (heap : Heap) (nodes : List Document.Node) :
    heap.Reads (nodes.map .node) nodes := by
  induction nodes with
  | nil => exact .nil
  | cons node rest restReads => exact .node restReads

/-- A parent that looks at a child sees the name and the categories of its tree. -/
theorem Reads.first {reference : Reference} {node : Document.Node}
    (reads : heap.Reads (reference :: references) (node :: nodes)) :
    (∃ seen, heap.seen? reference = some seen ∧ seen.tags = node.tags ∧
      seen.requiredName = node.requiredName) ∧ heap.Reads references nodes := by
  cases reads with
  | node rest => exact ⟨⟨node, rfl, rfl, rfl⟩, rest⟩
  | given held rest => exact ⟨⟨node, by rw [seen?, held]; rfl, rfl, rfl⟩, rest⟩
  | @object _ object _ _ _ _ held _ _ rest =>
    exact ⟨⟨.element object.own, by rw [seen?, held]; rfl, rfl, rfl⟩, rest⟩

theorem Reads.seenAll (reads : heap.Reads references nodes) :
    ∃ seen, references.mapM heap.seen? = some seen ∧
      seen.map Document.Node.requiredName = nodes.map Document.Node.requiredName := by
  induction references generalizing nodes with
  | nil =>
    cases reads
    exact ⟨[], rfl, rfl⟩
  | cons reference rest ih =>
    cases nodes with
    | nil => cases reads
    | cons node others =>
      obtain ⟨⟨seen, found, -, sameName⟩, restReads⟩ := reads.first
      obtain ⟨further, restFound, sameNames⟩ := ih restReads
      refine ⟨seen :: further, ?_, ?_⟩
      · rw [List.mapM_cons, found, restFound]
        rfl
      · rw [List.map_cons, List.map_cons, sameName, sameNames]

/-- The variables from one number up to another. -/
def between (heap : Heap) (first last : Nat) : Heap :=
  fun index => if first ≤ index ∧ index < last then heap index else none

theorem between_eq_some {first last index : Nat} {held : Held} :
    heap.between first last index = some held ↔
      (first ≤ index ∧ index < last) ∧ heap index = some held := by
  unfold between
  split
  · next inside => simp [inside]
  · next outside => simp [outside]

theorem Reads.of_between {first last : Nat}
    (reads : (heap.between first last).Reads references nodes) : heap.Reads references nodes :=
  reads.mono fun _ _ found => (between_eq_some.mp found).2

/-- What can be read between two numbers stays while the variables between them stay. -/
theorem Reads.widen {first last lower upper : Nat}
    (reads : (heap.between first last).Reads references nodes) (below : lower ≤ first)
    (above : last ≤ upper)
    (kept : ∀ index, first ≤ index → index < last → after index = heap index) :
    (after.between lower upper).Reads references nodes := by
  apply reads.mono
  intro index held found
  obtain ⟨⟨atLeast, atMost⟩, present⟩ := between_eq_some.mp found
  apply between_eq_some.mpr
  refine ⟨⟨by omega, by omega⟩, ?_⟩
  rw [kept index atLeast atMost, present]

end Heap

end Program

end TypedMarkup
