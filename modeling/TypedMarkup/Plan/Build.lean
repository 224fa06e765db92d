import TypedMarkup.Document.Element
import TypedMarkup.Host.Scope
import TypedMarkup.Plan.Basic
import TypedMarkup.Plan.Splice

/-!
Contract: building documents from plans.

Owns: `Plan.build`, which evaluates the expressions of a plan among the names of a scope and makes
the document. Within an element, typed attributes come first, then data, event handlers, required
children and optional children, each in the order of the source.

Every check that an element makes stays in place while it is built. `Fault` keeps apart what the
plan would be to blame for and what only a value can bring about.
-/

namespace TypedMarkup

namespace Build

/-- What the plan itself is to blame for, whatever the values are: an attribute that the schema
does not have, required children other than those of the schema, a written child that the
constraint does not accept, a handler without an output type, and a written handler of a kind that
the output type does not take. -/
inductive StructuralFault where
  | refused (refusal : Refusal)
  | outputMissing
  | writtenHandler (event element : String) (refusal : Refusal) (span : Span)

/-- What stops building: a fault of the plan, or a failure that a value brings about. -/
inductive Fault where
  | structural (fault : StructuralFault)
  | failed (failure : Failure)

def handlerFailure (event element : String) (refusal : Refusal) (span : Span) : Failure :=
  .compile (.construction (.handlerRejected event element refusal.message) span)

/-- How a fault is reported. Faults of a plan are reported as they come. -/
def Fault.failure : Fault → Failure
  | structural (.refused refusal) => .refused refusal
  | structural .outputMissing => .outputMissing
  | structural (.writtenHandler event element refusal span) =>
    handlerFailure event element refusal span
  | failed failure => failure

def structurally {α : Type} (change : Except Refusal α) : Except Fault α :=
  change.mapError fun refusal => .structural (.refused refusal)

/-- How a failed attribute is reported: a value that does not fit is an error of the unit at its
expression, and any other failure stays as it is. -/
def attributeFailure (name element : String) (span : Span) (failure : Failure) : Failure :=
  if failure.blamesValue then
    .compile (.construction (.attributeRejected name element failure.message) span)
  else failure

def setAttribute (scope : Scope) (element : Element) (plan : AttributePlan) :
    Except Fault Element :=
  match plan.source with
  | .literal _ value => structurally (element.setAttribute plan.name value)
  | .expression code => do
    let found ← (code.evaluate scope).mapError .failed
    let type ← structurally (element.attributeType plan.name)
    let fitted ← ((type.coerce found.value).run' found.memory).mapError fun failure =>
      .failed (attributeFailure plan.name element.schema.name code.span failure)
    structurally (element.setAttribute plan.name fitted)

def setData (scope : Scope) (element : Element) (plan : DataPlan) : Except Failure Element :=
  match plan.source with
  | .literal written => .ok (element.setData plan.name written)
  | .expression code => do
    let found ← code.evaluate scope
    return element.setData plan.name (← found.value.shown)

def handlerValue (scope : Scope) : TextSource → Except Failure Value
  | .literal written => .ok (.text written)
  | .expression code => (code.evaluate scope).map Evaluated.value

/-- The fault of a handler of the wrong kind: of the plan if the handler is written in it. -/
def handlerFault (element : String) (plan : EventPlan) (refusal : Refusal) : Fault :=
  match plan.source with
  | .literal _ => .structural (.writtenHandler plan.event element refusal plan.span)
  | .expression _ => .failed (handlerFailure plan.event element refusal plan.span)

def setHandler (output : Option OutputType) (scope : Scope) (element : Element)
    (plan : EventPlan) : Except Fault Element := do
  let value ← (handlerValue scope plan.source).mapError .failed
  match output with
  | none => throw (.structural .outputMissing)
  | some target => do
    let handler ← (Document.bindHandler target plan.event value).mapError
      (handlerFault element.schema.name plan)
    return element.setHandler handler

/-- Adds the nodes of a block as they are taken, up to the first failure. -/
def appendPending (span : Span) : (fuel : Nat) → Element → Pending → Except Failure Element
  | 0, _, _ => .error .tooDeep
  | fuel + 1, element, pending =>
    match pending.next span with
    | .error failure => .error failure
    | .ok none => .ok element
    | .ok (some (node, rest)) =>
      match element.append (.node node) with
      | .ok extended => appendPending span fuel extended rest
      | .error refusal =>
        .error (.compile (.construction (.itemRejected refusal.message) span))

def appendBlock (scope : Scope) (element : Element) (block : BlockPlan) :
    Except Failure Element := do
  let found ← block.expression.evaluate scope
  let span := block.expression.span
  let pending ← Pending.ofValue found span
  appendPending span Host.steps element pending

def startElement (output : Option OutputType) (scope : Scope) (plan : TagPlan) :
    Except Fault Element := do
  let attributed ← plan.attributes.foldlM (setAttribute scope)
    (Document.ElementOf.ofSchema plan.schema output)
  let annotated ← (plan.data.foldlM (setData scope) attributed).mapError .failed
  plan.events.foldlM (setHandler output scope) annotated

def setRequired (element : Element) (children : List Document.Node) : Except Fault Element :=
  if children.isEmpty then .ok element
  else structurally (element.setRequired (children.map .node))

def rootNode (span : Span) (spliced : Spliced) : Except Failure Document.Node :=
  match spliced.finish with
  | some failure => .error failure
  | none =>
    match spliced.nodes with
    | [node] => .ok node
    | nodes => .error (.compile (.construction (.rootCount nodes.length) span))

mutual

def buildNode (output : Option OutputType) (scope : Scope) :
    NodePlan → Except Fault Document.Node
  | .text value _ => .ok (.text value)
  | .block block => do
    let found ← (block.expression.evaluate scope).mapError .failed
    (rootNode block.expression.span (splice found block.expression.span)).mapError .failed
  | .element head required optional => do
    let started ← startElement output scope head
    let children ← buildRequired output scope required
    let bound ← setRequired started children
    let finished ← appendOptional output scope bound optional
    return .element finished

def buildRequired (output : Option OutputType) (scope : Scope) :
    List NodePlan → Except Fault (List Document.Node)
  | [] => .ok []
  | child :: rest => do
    let first ← buildNode output scope child
    let more ← buildRequired output scope rest
    return first :: more

/-- Builds the optional children of an element and adds them one by one. -/
def appendOptional (output : Option OutputType) (scope : Scope) (element : Element) :
    List NodePlan → Except Fault Element
  | [] => .ok element
  | .block block :: rest => do
    let extended ← (appendBlock scope element block).mapError .failed
    appendOptional output scope extended rest
  | child :: rest => do
    let node ← buildNode output scope child
    let extended ← structurally (element.append (.node node))
    appendOptional output scope extended rest

end

def withSource (source : String) : Failure → Failure
  | .compile error =>
    match error.cause with
    | .construction _ => .compile (error.withSource source)
    | _ => .compile error
  | other => other

end Build

def Plan.build (plan : Plan) (scope : Scope) : Except Failure Document.Node :=
  (Build.buildNode plan.output scope plan.root).mapError fun fault =>
    Build.withSource plan.source fault.failure

end TypedMarkup
