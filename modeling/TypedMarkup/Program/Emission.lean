import TypedMarkup.Host.Scope
import TypedMarkup.Program.Basic

/-!
Contract: the program of a plan.

Owns: `Plan.program`. Variables are numbered in the order in which elements begin in the source.
The names that host code of the plan uses are looked up first, in the order of their first use; a
name that programs use themselves is refused.
-/

namespace TypedMarkup

namespace Program

def ownNames : List String := [
  "_TextNode", "_TypedElement", "_OutputType", "_bind", "_Scope", "_lookup", "_resolve_path",
  "_splice_items", "_default_registry", "_Position", "_Span", "_registry", "_ns"]

/-- Whether a name is reserved: it is one of the programs' own names, or that of a variable. -/
def isReserved (name : String) : Bool :=
  ownNames.contains name ||
    match name.toList with
    | '_' :: 'e' :: digits => !digits.isEmpty && digits.all Char.isDigit
    | _ => false

def fillStatements (index : Nat) (head : TagPlan) : List Statement :=
  head.attributes.map (fun plan =>
    match plan.source with
    | .literal written _ => .parseAttribute index plan.name written
    | .expression code => .coerceAttribute index plan.name code) ++
    head.data.map (fun plan => .setData index plan.name plan.source) ++
    head.events.map fun plan => .setEvent index plan.event plan.source

/-- Statements that make a node: the operand for it, and the next number of a variable. -/
structure Emitted where
  statements : List Statement
  operand : Operand
  next : Nat
deriving DecidableEq, Repr

/-- Statements that make several nodes: the variables of them, and the next number. -/
structure EmittedAll where
  statements : List Statement
  indices : List Nat
  next : Nat
deriving DecidableEq, Repr

def Operand.index? : Operand → Option Nat
  | .made index => some index
  | .text _ => none

mutual

def emitNode (next : Nat) : NodePlan → Emitted
  | .text value _ => ⟨[], .text value, next⟩
  | .block block => ⟨[.take next block.expression], .made next, next + 1⟩
  | .element head required optional =>
    let children := emitRequired (next + 1) required
    let bound :=
      if children.indices.isEmpty then [] else [.setRequired next children.indices]
    let rest := emitOptional next children.next optional
    ⟨.create next head.schema.name :: fillStatements next head ++ children.statements ++ bound ++
      rest.1, .made next, rest.2⟩

def emitRequired (next : Nat) : List NodePlan → EmittedAll
  | [] => ⟨[], [], next⟩
  | child :: rest =>
    let first := emitNode next child
    let more := emitRequired first.next rest
    ⟨first.statements ++ more.statements, first.operand.index?.toList ++ more.indices,
      more.next⟩

/-- The statements that make and add optional children of an element, and the next number. -/
def emitOptional (parent next : Nat) : List NodePlan → List Statement × Nat
  | [] => ([], next)
  | .block block :: rest =>
    let more := emitOptional parent next rest
    (.extend parent block.expression :: more.1, more.2)
  | child :: rest =>
    let first := emitNode next child
    let more := emitOptional parent first.next rest
    (first.statements ++ .append parent first.operand :: more.1, more.2)

end

/-- The expressions of what an element is made of, its children apart. -/
def tagExpressions (head : TagPlan) : List Expression :=
  head.attributes.filterMap (fun plan =>
    match plan.source with
    | .expression code => some code
    | .literal _ _ => none) ++
    head.data.filterMap (fun plan => textExpression? plan.source) ++
    head.events.filterMap fun plan => textExpression? plan.source
where
  textExpression? : TextSource → Option Expression
    | .expression code => some code
    | .literal _ => none

mutual

def expressions : NodePlan → List Expression
  | .text _ _ => []
  | .block block => [block.expression]
  | .element head required optional =>
    tagExpressions head ++ expressionsAll required ++ expressionsAll optional

def expressionsAll : List NodePlan → List Expression
  | [] => []
  | plan :: rest => expressions plan ++ expressionsAll rest

end

/-- The free names of host code, none of which may be reserved. Paths are resolved by themselves
and need no names. -/
def codeNames (expression : Expression) : Except Failure (List String) :=
  match expression with
  | .path _ _ _ => .ok []
  | other => do
    let names ← other.freeNames
    match names.find? isReserved with
    | some name => throw (.compile (.construction (.reservedName name) other.span))
    | none => return names

end Program

def Plan.program (plan : Plan) : Except Failure Program := do
  let names ← (Program.expressions plan.root).mapM Program.codeNames
  let emitted := Program.emitNode 0 plan.root
  return { names := distinct names.flatten
           statements := emitted.statements
           result := emitted.operand
           output := plan.output }

end TypedMarkup
