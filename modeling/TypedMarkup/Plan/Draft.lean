import TypedMarkup.Document.Element
import TypedMarkup.Markup.Checked
import TypedMarkup.Plan.Basic

/-!
Contract: the plan of a checked unit.

Owns: `Plan.ofChecked`. Literals are read here by the types of their attributes, so a bad literal
is an error before anything is built. An event handler needs an output type.
-/

namespace TypedMarkup

namespace Draft

/-- Plans a typed attribute. `element` is the name of its element as written. -/
def planAttribute (source element : String) (typed : TypedAttribute) :
    Except CompileError AttributePlan :=
  match typed.written.value with
  | .expression code => .ok ⟨typed.key, .expression code, typed.written.span⟩
  | .literal value _ _ span =>
    match typed.type.parse value with
    | .ok parsed => .ok ⟨typed.key, .literal value parsed, typed.written.span⟩
    | .error rejection =>
      .error
        { cause := .attributeValue element typed.written.name value rejection.message
          span := span
          source := source }

def planData (entry : String × Markup.Attribute) : DataPlan :=
  match entry.2.value with
  | .literal value _ _ _ => ⟨entry.1, .literal value, entry.2.span⟩
  | .expression code => ⟨entry.1, .expression code, entry.2.span⟩

def planEvent (output : Option OutputType) (source element : String)
    (entry : String × Markup.Attribute) : Except CompileError EventPlan :=
  match output with
  | none =>
    .error
      { cause := .missingOutput element entry.1
        span := entry.2.nameSpan
        source := source }
  | some target =>
    match entry.2.value with
    | .expression code => .ok ⟨entry.1, .expression code, entry.2.span⟩
    | .literal value _ _ span =>
      match Document.checkHandler target (.text value) with
      | .ok () => .ok ⟨entry.1, .literal value, entry.2.span⟩
      | .error refusal =>
        .error
          { cause := .attributeValue element entry.2.name value refusal.message
            span := span
            source := source }

/-- Plans what an element is made of, its children apart. -/
def planTag (output : Option OutputType) (source : String) (head : CheckedTag) :
    Except CompileError TagPlan := do
  let name := head.tag.name
  let attributes ← head.buckets.typed.mapM (planAttribute source name)
  let events ← head.buckets.events.mapM (planEvent output source name)
  return ⟨head.schema, attributes, head.buckets.data.map planData, events, head.span⟩

mutual

/-- Plans a node. `parent` is the start of the element it is in. -/
def planNode (output : Option OutputType) (source : String) (parent : Option CheckedTag) :
    Checked → Except CompileError NodePlan
  | .text value span => .ok (.text value span)
  | .block expression =>
    .ok (.block
      { expression := expression
        parent := (parent.map fun head => head.tag.name).getD ""
        constraint := parent.bind fun head => head.schema.constraint })
  | .element head required optional => do
    let planned ← planTag output source head
    let requiredPlans ← planAll output source head required
    let optionalPlans ← planAll output source head optional
    return .element planned requiredPlans optionalPlans

def planAll (output : Option OutputType) (source : String) (parent : CheckedTag) :
    List Checked → Except CompileError (List NodePlan)
  | [] => .ok []
  | child :: rest => do
    let first ← planNode output source (some parent) child
    let more ← planAll output source parent rest
    return first :: more

end

end Draft

def Plan.ofChecked (root : Checked) (output : Option OutputType) (source : String) :
    Except CompileError Plan :=
  (Draft.planNode output source none root).map fun planned => ⟨planned, output, source⟩

end TypedMarkup
