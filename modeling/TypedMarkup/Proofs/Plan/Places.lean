import TypedMarkup.Proofs.Markup.Placing
import TypedMarkup.Proofs.Mirroring
import TypedMarkup.Proofs.Plan.Blameless

/-!
Contract: places are for reports only.

Owns: `unplaced` for checked trees and plans, which puts every place to the origin, and the
proof that checking, planning and building a tree come to the same without its places, whatever text
the tree was read from. Errors do name places, so only values are compared.
-/

namespace TypedMarkup

open Markup

/-! ## Without places -/

def TypedAttribute.unplaced (typed : TypedAttribute) : TypedAttribute :=
  ⟨typed.written.unplaced, typed.key, typed.type⟩

def unplacedEntry (entry : String × Markup.Attribute) : String × Markup.Attribute :=
  (entry.1, entry.2.unplaced)

def AttributeBuckets.unplaced (buckets : AttributeBuckets) : AttributeBuckets :=
  ⟨buckets.typed.map TypedAttribute.unplaced, buckets.data.map unplacedEntry,
    buckets.events.map unplacedEntry⟩

def CheckedTag.unplaced (head : CheckedTag) : CheckedTag :=
  ⟨head.tag.unplaced, head.schema, head.buckets.unplaced, .origin⟩

namespace Checked

mutual

/-- A checked tree with every place put to the origin. -/
def unplaced : Checked → Checked
  | element head required optional =>
    element head.unplaced (unplacedAll required) (unplacedAll optional)
  | text value _ => text value .origin
  | block expression => block expression.unplaced

def unplacedAll : List Checked → List Checked
  | [] => []
  | child :: rest => child.unplaced :: unplacedAll rest

end

theorem unplacedAll_eq_map (children : List Checked) :
    unplacedAll children = children.map unplaced := by
  induction children with
  | nil => rfl
  | cons child rest ih => rw [unplacedAll, ih, List.map_cons]

end Checked

def AttributeSource.unplaced : AttributeSource → AttributeSource
  | literal written value => literal written value
  | expression code => expression code.unplaced

def TextSource.unplaced : TextSource → TextSource
  | literal written => literal written
  | expression code => expression code.unplaced

def AttributePlan.unplaced (plan : AttributePlan) : AttributePlan :=
  ⟨plan.name, plan.source.unplaced, .origin⟩

def DataPlan.unplaced (plan : DataPlan) : DataPlan :=
  ⟨plan.name, plan.source.unplaced, .origin⟩

def EventPlan.unplaced (plan : EventPlan) : EventPlan :=
  ⟨plan.event, plan.source.unplaced, .origin⟩

def TagPlan.unplaced (plan : TagPlan) : TagPlan :=
  ⟨plan.schema, plan.attributes.map AttributePlan.unplaced, plan.data.map DataPlan.unplaced,
    plan.events.map EventPlan.unplaced, .origin⟩

def BlockPlan.unplaced (block : BlockPlan) : BlockPlan :=
  { block with expression := block.expression.unplaced }

namespace NodePlan

mutual

/-- A plan with every place put to the origin. -/
def unplaced : NodePlan → NodePlan
  | element head required optional =>
    element head.unplaced (unplacedAll required) (unplacedAll optional)
  | text value _ => text value .origin
  | block found => block found.unplaced

def unplacedAll : List NodePlan → List NodePlan
  | [] => []
  | child :: rest => child.unplaced :: unplacedAll rest

end

theorem unplacedAll_eq_map (plans : List NodePlan) :
    unplacedAll plans = plans.map unplaced := by
  induction plans with
  | nil => rfl
  | cons plan rest ih => rw [unplacedAll, ih, List.map_cons]

theorem unplaced_ne_block {plan : NodePlan} (written : ∀ block, plan ≠ .block block)
    (block : BlockPlan) : plan.unplaced ≠ .block block := by
  cases plan with
  | element | text => simp [unplaced]
  | block found => exact absurd rfl (written found)

end NodePlan

/-! ## Checking -/

section

variable {registry : Registry} {source other : String}

theorem schemaOf_unplaced (tag : Tag) :
    Mirrors id (schemaOf registry other tag.unplaced) (schemaOf registry source tag) := by
  have sameName : tag.unplaced.name = tag.name := rfl
  unfold schemaOf
  rw [sameName]
  split
  · rfl
  · trivial

theorem checkRequiredName_unplaced (tag : Tag) (expected : String) (index : Nat) (child : Node) :
    Mirrors id (checkRequiredName other tag.unplaced expected index child.unplaced)
      (checkRequiredName source tag expected index child) := by
  apply Mirrors.of_iff
  rw [checkRequiredName_eq_ok, checkRequiredName_eq_ok]
  cases child <;> simp [Node.HasKey, Node.unplaced, Tag.unplaced]

theorem acceptedBy_unplaced {constraint : String} (child : Node) :
    child.unplaced.AcceptedBy registry constraint ↔ child.AcceptedBy registry constraint := by
  cases child with
  | element | text | block => rfl

theorem checkAccepted_unplaced (tag : Tag) (schema : Schema) (child : Node) :
    Mirrors id (checkAccepted registry other tag.unplaced schema child.unplaced)
      (checkAccepted registry source tag schema child) := by
  apply Mirrors.of_iff
  rw [checkAccepted_eq_ok, checkAccepted_eq_ok]
  simp only [acceptedBy_unplaced]

theorem sortAttributes_unplaced (tag : Tag) (schema : Schema) (attributes : List Attribute) :
    Mirrors AttributeBuckets.unplaced
      (sortAttributes other tag.unplaced schema (attributes.map Attribute.unplaced))
      (sortAttributes source tag schema attributes) := by
  induction attributes with
  | nil => rfl
  | cons found rest ih =>
    have sameName : found.unplaced.name = found.name := rfl
    rw [List.map_cons, sortAttributes, sortAttributes, sameName]
    split
    · apply ih.bind
      intro buckets
      rfl
    · apply ih.bind
      intro buckets
      rfl
    · split
      · trivial
      · apply ih.bind
        intro buckets
        rfl

/-- The two parts of the children put to the origin. -/
def unplacedParts (parts : List Checked × List Checked) : List Checked × List Checked :=
  (Checked.unplacedAll parts.1, Checked.unplacedAll parts.2)

mutual

theorem checkNode_unplaced (node : Node) :
    Mirrors Checked.unplaced (checkNode registry other node.unplaced)
      (checkNode registry source node) := by
  cases node with
  | element tag children span =>
    rw [Node.unplaced, checkNode, checkNode]
    apply (schemaOf_unplaced tag).bind
    intro schema
    have sameLength : (unplacedAll children).length = children.length := by
      rw [unplacedAll_eq_map, List.length_map]
    simp only [id, sameLength]
    split
    · trivial
    · apply (checkChildren_unplaced tag schema schema.required 1 children).bind
      intro parts
      apply (sortAttributes_unplaced tag schema tag.attributes).bind
      intro buckets
      rfl
  | text | block => rfl

theorem checkChildren_unplaced (tag : Tag) (schema : Schema) (expected : List String)
    (index : Nat) (children : List Node) :
    Mirrors unplacedParts
      (checkChildren registry other tag.unplaced schema expected index (unplacedAll children))
      (checkChildren registry source tag schema expected index children) := by
  cases children with
  | nil =>
    rw [unplacedAll, checkChildren, checkChildren]
    rfl
  | cons child rest =>
    rw [unplacedAll]
    cases expected with
    | cons name names =>
      rw [checkChildren, checkChildren]
      apply (checkRequiredName_unplaced tag name index child).bind
      intro _
      apply (checkNode_unplaced child).bind
      intro first
      apply (checkChildren_unplaced tag schema names (index + 1) rest).bind
      intro parts
      rfl
    | nil =>
      rw [checkChildren, checkChildren]
      apply (checkAccepted_unplaced tag schema child).bind
      intro _
      apply (checkNode_unplaced child).bind
      intro first
      apply (checkChildren_unplaced tag schema [] (index + 1) rest).bind
      intro parts
      rfl

end

end

/-! ## Planning -/

namespace Draft

section

variable {output : Option OutputType} {source other : String}

theorem planAttribute_unplaced (element : String) (typed : TypedAttribute) :
    Mirrors AttributePlan.unplaced (planAttribute other element typed.unplaced)
      (planAttribute source element typed) := by
  obtain ⟨⟨name, value, nameSpan, span⟩, key, type⟩ := typed
  cases value with
  | literal value raw quoted span =>
    simp only [planAttribute, TypedAttribute.unplaced, Markup.Attribute.unplaced,
      AttributeValue.unplaced]
    split
    · rfl
    · trivial
  | expression code => rfl

theorem planData_unplaced (entry : String × Markup.Attribute) :
    planData (unplacedEntry entry) = (planData entry).unplaced := by
  obtain ⟨name, ⟨written, value, nameSpan, span⟩⟩ := entry
  cases value with
  | literal | expression => rfl

theorem planEvent_unplaced (element : String) (entry : String × Markup.Attribute) :
    Mirrors EventPlan.unplaced (planEvent output other element (unplacedEntry entry))
      (planEvent output source element entry) := by
  obtain ⟨event, ⟨name, value, nameSpan, span⟩⟩ := entry
  cases output with
  | none => trivial
  | some target =>
    cases value with
    | literal value raw quoted span =>
      simp only [planEvent, unplacedEntry, Markup.Attribute.unplaced, AttributeValue.unplaced]
      split
      · rfl
      · trivial
    | expression code => rfl

theorem planTag_unplaced (head : CheckedTag) :
    Mirrors TagPlan.unplaced (planTag output other head.unplaced) (planTag output source head) := by
  apply (Mirrors.mapM fun typed _ => planAttribute_unplaced head.tag.name typed).bind
  intro attributes
  apply (Mirrors.mapM fun entry _ => planEvent_unplaced head.tag.name entry).bind
  intro events
  simp only [CheckedTag.unplaced, AttributeBuckets.unplaced, List.map_map]
  have sameData : planData ∘ unplacedEntry = DataPlan.unplaced ∘ planData :=
    funext planData_unplaced
  rw [sameData, ← List.map_map]
  rfl

theorem planNode_unplaced (parent : Option CheckedTag) (checked : Checked) :
    Mirrors NodePlan.unplaced
      (planNode output other (parent.map CheckedTag.unplaced) checked.unplaced)
      (planNode output source parent checked) := by
  cases checked with
  | element head required optional =>
    simp only [Checked.unplaced, planNode, planAll_eq_mapM, Checked.unplacedAll_eq_map]
    apply (planTag_unplaced head).bind
    intro planned
    apply (Mirrors.mapM fun child _ => planNode_unplaced (some head) child).bind
    intro requiredPlans
    apply (Mirrors.mapM fun child _ => planNode_unplaced (some head) child).bind
    intro optionalPlans
    simp only [← NodePlan.unplacedAll_eq_map]
    rfl
  | text value span => rfl
  | block expression =>
    cases parent with
    | none => rfl
    | some head => rfl

end

end Draft

/-! ## Building -/

section

variable {scope : Scope} {first second : Span}

theorem term_place (code : String) (first second : Span) :
    Mirrors id (Expression.term code first) (Expression.term code second) := by
  unfold Expression.term
  split
  · trivial
  · split
    · rfl
    · trivial

theorem evaluateCode_place (code : String) (first second : Span) :
    Mirrors id (Expression.evaluateCode code first scope)
      (Expression.evaluateCode code second scope) := by
  apply (term_place code first second).bind
  intro found
  simp only [id]
  split
  · trivial
  · split
    · rfl
    · trivial

theorem evaluate_unplaced (expression : Expression) :
    Mirrors id (expression.unplaced.evaluate scope) (expression.evaluate scope) := by
  cases expression with
  | path head members span =>
    simp only [Expression.unplaced, Expression.evaluate]
    split
    · rfl
    · trivial
  | call segments code span | group delimiter code span =>
    exact evaluateCode_place code .origin span

namespace Pending

theorem ofValue_place (found : Evaluated) (first second : Span) :
    Mirrors id (ofValue found first) (ofValue found second) := by
  unfold ofValue
  split
  · rfl
  · split
    · split
      · rfl
      · trivial
    · trivial

theorem next_place (pending : Pending) (first second : Span) :
    Mirrors id (pending.next first) (pending.next second) := by
  cases pending with
  | done => rfl
  | single node => rfl
  | items reference memory =>
    simp only [next]
    split
    · trivial
    · rfl
    · split
      · rfl
      · trivial

/-- The nodes of a block, and whether there are no more of them, do not depend on its place. -/
theorem all_place (fuel : Nat) (taken : List Document.Node) (pending : Pending)
    (first second : Span) :
    (pending.all first fuel taken).nodes = (pending.all second fuel taken).nodes ∧
      ((pending.all first fuel taken).finish = none ↔
        (pending.all second fuel taken).finish = none) := by
  induction fuel generalizing taken pending with
  | zero => simp [all]
  | succ fuel ih =>
    rw [all, all]
    rcases (pending.next_place first second).cases_id with
      ⟨found, here, there⟩ | ⟨fault, failure, here, there⟩
    · rw [here, there]
      cases found with
      | none => simp
      | some entry => exact ih (entry.1 :: taken) entry.2
    · simp [here, there]

end Pending

theorem splice_place (found : Evaluated) (first second : Span) :
    (splice found first).nodes = (splice found second).nodes ∧
      ((splice found first).finish = none ↔ (splice found second).finish = none) := by
  unfold splice
  rcases (Pending.ofValue_place found first second).cases_id with
    ⟨pending, here, there⟩ | ⟨fault, failure, here, there⟩
  · rw [here, there]
    exact Pending.all_place Host.steps [] pending first second
  · simp [here, there]

end

namespace Build

section

variable {output : Option OutputType} {scope : Scope}

theorem setAttribute_unplaced (element : Element) (plan : AttributePlan) :
    Mirrors id (setAttribute scope element plan.unplaced) (setAttribute scope element plan) := by
  obtain ⟨name, source, span⟩ := plan
  cases source with
  | literal written value => exact .refl _
  | expression code =>
    apply (evaluate_unplaced code).mapError.bind
    intro found
    apply (Mirrors.refl _).bind
    intro type
    apply (Mirrors.refl _).mapError.bind
    intro fitted
    exact .refl _

theorem setData_unplaced (element : Element) (plan : DataPlan) :
    Mirrors id (setData scope element plan.unplaced) (setData scope element plan) := by
  obtain ⟨name, source, span⟩ := plan
  cases source with
  | literal written => rfl
  | expression code =>
    apply (evaluate_unplaced code).bind
    intro found
    exact .refl _

theorem handlerValue_unplaced (source : TextSource) :
    Mirrors id (handlerValue scope source.unplaced) (handlerValue scope source) := by
  cases source with
  | literal written => rfl
  | expression code =>
    apply (evaluate_unplaced code).bind
    intro found
    rfl

theorem setHandler_unplaced (element : Element) (plan : EventPlan) :
    Mirrors id (setHandler output scope element plan.unplaced)
      (setHandler output scope element plan) := by
  apply (handlerValue_unplaced plan.source).mapError.bind
  intro value
  cases output with
  | none => trivial
  | some target =>
    apply (Mirrors.refl _).mapError.bind
    intro handler
    rfl

theorem startElement_unplaced (plan : TagPlan) :
    Mirrors id (startElement output scope plan.unplaced) (startElement output scope plan) := by
  apply (Mirrors.foldlM (fun plan _ element => setAttribute_unplaced element plan) _).bind
  intro attributed
  apply (Mirrors.foldlM (fun plan _ element => setData_unplaced element plan) _).mapError.bind
  intro annotated
  exact .foldlM (fun plan _ element => setHandler_unplaced element plan) _

theorem appendPending_place (fuel : Nat) (element : Element) (pending : Pending)
    (first second : Span) :
    Mirrors id (appendPending first fuel element pending)
      (appendPending second fuel element pending) := by
  induction fuel generalizing element pending with
  | zero => trivial
  | succ fuel ih =>
    rw [appendPending, appendPending]
    rcases (pending.next_place first second).cases_id with
      ⟨found, here, there⟩ | ⟨fault, failure, here, there⟩
    · rw [here, there]
      cases found with
      | none => rfl
      | some entry =>
        dsimp only
        split
        · exact ih _ entry.2
        · trivial
    · rw [here, there]
      trivial

theorem appendBlock_unplaced (element : Element) (block : BlockPlan) :
    Mirrors id (appendBlock scope element block.unplaced) (appendBlock scope element block) := by
  apply (evaluate_unplaced block.expression).bind
  intro found
  apply (Pending.ofValue_place found _ _).bind
  intro pending
  exact appendPending_place Host.steps element pending _ _

theorem rootNode_place (found : Evaluated) (first second : Span) :
    Mirrors id (rootNode first (splice found first)) (rootNode second (splice found second)) := by
  obtain ⟨sameNodes, sameFinish⟩ := splice_place found first second
  unfold rootNode
  cases there : (splice found second).finish with
  | none =>
    rw [sameFinish.mpr there, sameNodes]
    dsimp only
    split
    · rfl
    · trivial
  | some failure =>
    cases here : (splice found first).finish with
    | none =>
      rw [sameFinish.mp here] at there
      cases there
    | some fault => trivial

theorem appendChild_unplaced {plan : NodePlan}
    (same : Mirrors id (buildNode output scope plan.unplaced) (buildNode output scope plan))
    (element : Element) : Mirrors id (appendChild output scope element plan.unplaced)
      (appendChild output scope element plan) := by
  rcases plan.block_or_written with ⟨block, rfl⟩ | written
  · exact (appendBlock_unplaced element block).mapError
  · rw [appendChild_written (NodePlan.unplaced_ne_block written), appendChild_written written]
    apply same.bind
    intro node
    exact .refl _

/-- A plan is built alike without its places. -/
theorem buildNode_unplaced (plan : NodePlan) :
    Mirrors id (buildNode output scope plan.unplaced) (buildNode output scope plan) := by
  cases plan with
  | element head required optional =>
    simp only [NodePlan.unplaced, buildNode, buildRequired_eq_mapM, appendOptional_eq_foldlM,
      NodePlan.unplacedAll_eq_map]
    apply (startElement_unplaced head).bind
    intro started
    apply (Mirrors.mapM fun child _ => buildNode_unplaced child).bind
    intro children
    rw [List.map_id]
    apply (Mirrors.refl _).bind
    intro bound
    apply (Mirrors.foldlM (fun child _ => appendChild_unplaced (buildNode_unplaced child)) _).bind
    intro finished
    rfl
  | text value span => rfl
  | block block =>
    rw [NodePlan.unplaced, buildNode, buildNode]
    apply (evaluate_unplaced block.expression).mapError.bind
    intro found
    exact (rootNode_place found _ _).mapError

end

end Build

end TypedMarkup
