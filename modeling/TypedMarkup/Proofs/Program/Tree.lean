import Mathlib.Data.List.Perm.Basic
import TypedMarkup.Proofs.Plan.Fits
import TypedMarkup.Proofs.Program.Hygiene
import TypedMarkup.Proofs.Program.Refinement

/-!
Contract: the variables of a program form the tree of its plan.

Owns: the numbers that elements have in document order, `Program.FormsTree`, and the theorem that it
holds of every program of a plan.

Lines that make some subtrees of the plan use the variables of an interval, and those of the parent
that the subtrees are added to. `Lines` says so, with the subtrees that are not added yet. Such
lines are put behind each other, and the line that adds the subtrees to the parent ends them. -/

namespace TypedMarkup

/-! ## The elements of a plan -/

mutual

/-- How many elements a plan has. -/
def NodePlan.size : NodePlan → Nat
  | .element _ required optional => NodePlan.sizes required + NodePlan.sizes optional + 1
  | .text _ _ => 0
  | .block _ => 0

def NodePlan.sizes : List NodePlan → Nat
  | [] => 0
  | child :: rest => child.size + NodePlan.sizes rest

end

def NodePlan.isElement : NodePlan → Bool
  | .element _ _ _ => true
  | _ => false

mutual

/-- Whether only elements are required children, at any depth. -/
def NodePlan.requiresElements : NodePlan → Bool
  | .element _ required optional =>
    required.all NodePlan.isElement && NodePlan.requireElements required &&
      NodePlan.requireElements optional
  | _ => true

def NodePlan.requireElements : List NodePlan → Bool
  | [] => true
  | child :: rest => child.requiresElements && NodePlan.requireElements rest

end

theorem NodePlan.requireElements_iff {plans : List NodePlan} :
    requireElements plans = true ↔ ∀ plan ∈ plans, plan.requiresElements = true := by
  induction plans with
  | nil => exact iff_of_true rfl (List.forall_mem_nil _)
  | cons plan rest ih => rw [requireElements, Bool.and_eq_true, ih, List.forall_mem_cons]

/-- The required children of a plan that fits have the names of schemas. -/
theorem NodePlan.Fits.requiresElements {registry : Registry} {output : Option OutputType}
    {plan : NodePlan} (fits : plan.Fits registry output) : plan.requiresElements = true := by
  induction fits with
  | text => rfl
  | block => rfl
  | @element head required optional _ names _ _ _ requiredIh optionalIh =>
    rw [NodePlan.requiresElements, requireElements_iff.mpr requiredIh,
      requireElements_iff.mpr optionalIh, Bool.and_true, Bool.and_true, List.all_eq_true]
    intro child member
    have named : child.schemaName? ∈ head.schema.required.map some :=
      names ▸ List.mem_map_of_mem member
    obtain ⟨name, -, same⟩ := List.mem_map.mp named
    cases child with
    | element => rfl
    | text => cases same
    | block => cases same

namespace Program

/-- The numbers of elements in document order: an element comes before its children, and each child
before those behind it. -/
inductive Numbered : Nat → NodePlan → Nat → NodePlan → Prop where
  | self (number : Nat) (node : NodePlan) : Numbered number node number node
  | required {number index : Nat} {head : TagPlan} {before after optional : List NodePlan}
      {child node : NodePlan}
      (inside : Numbered (number + 1 + NodePlan.sizes before) child index node) :
      Numbered number (.element head (before ++ child :: after) optional) index node
  | optional {number index : Nat} {head : TagPlan} {required before after : List NodePlan}
      {child node : NodePlan}
      (inside : Numbered (number + 1 + NodePlan.sizes required + NodePlan.sizes before) child index
        node) :
      Numbered number (.element head required (before ++ child :: after)) index node

/-- The numbers of elements that stand side by side. -/
def numbers (number : Nat) : List NodePlan → List Nat
  | [] => []
  | child :: rest => number :: numbers (number + child.size) rest

/-- The lines that add optional children, the first of which has a number. -/
def childLines (parent number : Nat) : List NodePlan → List Statement
  | [] => []
  | child :: rest =>
    (match child with
      | .element _ _ _ => .append parent (.made number)
      | .text value _ => .append parent (.text value)
      | .block block => .extend parent block.expression) ::
      childLines parent (number + child.size) rest

/-- The line that adds required children, if there are any. -/
def requiredLine (index : Nat) (required : List NodePlan) : List Statement :=
  if required.isEmpty then [] else [.setRequired index (numbers (index + 1) required)]

/-- The lines that belong to the variable of an element. -/
def ownLines (index : Nat) (head : TagPlan) (required optional : List NodePlan) : List Statement :=
  .create index head.schema.name :: (fillStatements index head ++ (requiredLine index required ++
    childLines index (index + 1 + NodePlan.sizes required) optional))

/-! ## Lines -/

/-- The variable that a line assigns. -/
def Statement.assigned? : Statement → Option Nat
  | create index _ => some index
  | take index _ => some index
  | _ => none

/-- Lines that make subtrees with the variables from a number on. They belong to these variables, or
to the parent of the subtrees. The roots are those that are not added to it. -/
structure Lines (parent : Option Nat) (start count : Nat) (lines : List Statement)
    (roots : List Nat) : Prop where
  above : ∀ index ∈ parent, index < start
  assigned : lines.filterMap Statement.assigned? = List.range' start count
  targets : ∀ line ∈ lines,
    parent = some line.target ∨ start ≤ line.target ∧ line.target < start + count
  arguments : (lines.flatMap Statement.arguments ++ roots).Perm (List.range' start count)
  filled : lines.Pairwise fun line later => later.target ∉ line.arguments
  known : lines.Pairwise fun line later => ∀ index ∈ later.assigned?, index ∉ line.mentions

namespace Lines

variable {parent : Option Nat} {start count further : Nat} {lines more : List Statement}
  {roots others : List Nat} {line : Statement} {index : Nat}

section

variable (block : Lines parent start count lines roots)

include block

theorem argument_mem (member : line ∈ lines) (argument : index ∈ line.arguments) :
    start ≤ index ∧ index < start + count := by
  have among := block.arguments.subset
    (List.mem_append_left _ (List.mem_flatMap.mpr ⟨line, member, argument⟩))
  simpa [List.mem_range'_1] using among

theorem assigned_mem (member : line ∈ lines) (assigned : index ∈ line.assigned?) :
    start ≤ index ∧ index < start + count := by
  have among := List.mem_filterMap.mpr ⟨line, member, assigned⟩
  rw [block.assigned] at among
  simpa [List.mem_range'_1] using among

theorem mention_lt (member : line ∈ lines) (mentioned : index ∈ line.mentions) :
    index < start + count := by
  rcases List.mem_cons.mp mentioned with rfl | argument
  · rcases block.targets line member with own | inside
    · exact Nat.lt_add_right count (block.above _ own)
    · exact inside.2
  · exact (block.argument_mem member argument).2

theorem append (next : Lines parent (start + count) further more others) :
    Lines parent start (count + further) (lines ++ more) (roots ++ others) where
  above := block.above
  assigned := by
    rw [List.filterMap_append, block.assigned, next.assigned, List.range'_append_1]
  targets := by
    intro line member
    rcases List.mem_append.mp member with here | later
    · rcases block.targets line here with own | inside
      · exact .inl own
      · exact .inr ⟨inside.1, by omega⟩
    · rcases next.targets line later with own | inside
      · exact .inl own
      · exact .inr ⟨by omega, by omega⟩
  arguments := by
    rw [← List.range'_append_1]
    refine .trans ?_ (block.arguments.append next.arguments)
    rw [List.flatMap_append]
    simp only [List.append_assoc]
    exact (List.perm_append_comm_assoc _ _ _).append_left _
  filled := by
    refine List.pairwise_append.mpr ⟨block.filled, next.filled, ?_⟩
    intro line member later laterMember argument
    have inside := block.argument_mem member argument
    rcases next.targets later laterMember with own | behind
    · have above := block.above _ own
      omega
    · omega
  known := by
    refine List.pairwise_append.mpr ⟨block.known, next.known, ?_⟩
    intro line member later laterMember index assigned mentioned
    have behind := next.assigned_mem laterMember assigned
    have inside := block.mention_lt member mentioned
    omega

end

theorem own {parent : Nat} (above : parent < start)
    (plain : ∀ line ∈ lines, line.target = parent ∧ line.arguments = [] ∧ line.assigned? = none) :
    Lines (some parent) start 0 lines [] where
  above := by simpa using above
  assigned := List.filterMap_eq_nil_iff.mpr fun line member => (plain line member).2.2
  targets := fun line member => .inl (congrArg some (plain line member).1.symm)
  arguments := by
    rw [List.append_nil, List.flatMap_eq_nil_iff.mpr fun line member => (plain line member).2.1]
    exact .nil
  filled := List.pairwise_of_forall_mem_list fun line member later _ => by
    rw [(plain line member).2.1]
    exact List.not_mem_nil
  known := List.pairwise_of_forall_mem_list fun line _ later member index assigned => by
    rw [(plain later member).2.2] at assigned
    cases assigned

theorem attach {parent : Nat} (block : Lines (some parent) start count lines roots)
    (own : line.target = parent) (adds : line.arguments = roots) (plain : line.assigned? = none) :
    Lines (some parent) start count (lines ++ [line]) [] where
  above := block.above
  assigned := by
    rw [List.filterMap_append, block.assigned]
    simp [plain]
  targets := by
    refine List.forall_mem_append.mpr ⟨block.targets, List.forall_mem_singleton.mpr ?_⟩
    exact .inl (congrArg some own.symm)
  arguments := by
    rw [List.flatMap_append, List.append_nil, List.flatMap_singleton, adds]
    exact block.arguments
  filled := by
    refine List.pairwise_append.mpr ⟨block.filled, List.pairwise_singleton _ _, ?_⟩
    intro earlier member _ last argument
    rw [List.mem_singleton.mp last, own] at argument
    exact absurd (block.argument_mem member argument).1 (Nat.not_le.mpr (block.above _ rfl))
  known := by
    refine List.pairwise_append.mpr ⟨block.known, List.pairwise_singleton _ _, ?_⟩
    intro earlier member _ last index assigned
    rw [List.mem_singleton.mp last, plain] at assigned
    cases assigned

/-- The line that makes an element, before those that fill it. -/
theorem element {parent : Option Nat} (above : ∀ index ∈ parent, index < start)
    (block : Lines (some start) (start + 1) count lines []) (name : String) :
    Lines parent start (count + 1) (.create start name :: lines) [start] where
  above := above
  assigned := by
    rw [List.range'_succ, ← block.assigned]
    rfl
  targets := by
    refine List.forall_mem_cons.mpr ⟨.inr ⟨Nat.le_refl _, by simp [Statement.target]⟩, ?_⟩
    intro line member
    rcases block.targets line member with own | inside
    · cases own
      exact .inr ⟨Nat.le_refl _, by omega⟩
    · exact .inr ⟨by omega, by omega⟩
  arguments := by
    have inner := block.arguments
    rw [List.append_nil] at inner
    rw [List.range'_succ, List.flatMap_cons]
    exact (List.perm_append_singleton _ _).trans (inner.cons start)
  filled := List.pairwise_cons.mpr ⟨fun _ _ => List.not_mem_nil, block.filled⟩
  known := by
    refine List.pairwise_cons.mpr ⟨?_, block.known⟩
    intro later member index assigned mentioned
    have behind := block.assigned_mem member assigned
    cases List.mem_singleton.mp mentioned
    exact absurd behind.1 (Nat.not_succ_le_self _)

/-- No line belongs to a variable outside of the interval, the parent apart. -/
theorem filter_outside (block : Lines parent start count lines roots) (index : Nat)
    (other : parent ≠ some index) (outside : index < start ∨ start + count ≤ index) :
    lines.filter (fun line => line.target = index) = [] := by
  refine List.filter_eq_nil_iff.mpr fun line member => ?_
  rw [decide_eq_true_eq]
  rintro rfl
  rcases block.targets line member with own | inside
  · exact other own
  · omega

end Lines

/-! ## Emission -/

/-- The lines of a plan make its elements with the next numbers. -/
def Emits (plan : NodePlan) : Prop :=
  ∀ next, (emitNode next plan).next = next + plan.size ∧
    ∀ parent : Option Nat, (∀ index ∈ parent, index < next) →
      Lines parent next plan.size (emitNode next plan).statements
        (emitNode next plan).operand.index?.toList

theorem nothing_emitted {parent : Option Nat} {next : Nat}
    (above : ∀ index ∈ parent, index < next) :
    Lines parent next 0 [] [] :=
  ⟨above, rfl, List.forall_mem_nil _, .nil, .nil, .nil⟩

theorem emitRequired_lines {children : List NodePlan} (emits : ∀ child ∈ children, Emits child)
    (elements : ∀ child ∈ children, child.isElement = true) (next : Nat) :
    (emitRequired next children).next = next + NodePlan.sizes children ∧
      (emitRequired next children).indices = numbers next children ∧
      ∀ parent : Option Nat, (∀ index ∈ parent, index < next) →
        Lines parent next (NodePlan.sizes children) (emitRequired next children).statements
          (numbers next children) := by
  induction children generalizing next with
  | nil => exact ⟨rfl, rfl, fun _ => nothing_emitted⟩
  | cons child rest ih =>
    obtain ⟨first, others⟩ := List.forall_mem_cons.mp emits
    obtain ⟨isElement, otherElements⟩ := List.forall_mem_cons.mp elements
    obtain ⟨firstNext, firstLines⟩ := first next
    obtain ⟨restNext, restIndices, restLines⟩ := ih others otherElements (next + child.size)
    have operand : (emitNode next child).operand = .made next := by
      cases child with
      | element head required optional => rw [emitNode]
      | text | block => cases isElement
    rw [emitRequired, firstNext]
    refine ⟨by rw [restNext, NodePlan.sizes, Nat.add_assoc], ?_, fun parent above => ?_⟩
    · rw [operand, restIndices]
      rfl
    · have begun := firstLines parent above
      rw [operand] at begun
      exact begun.append (restLines parent fun index member => by have := above index member; omega)

theorem emitOptional_lines {parent : Nat} {children : List NodePlan}
    (emits : ∀ child ∈ children, (∀ block, child ≠ .block block) → Emits child) (next : Nat)
    (above : parent < next) :
    (emitOptional parent next children).2 = next + NodePlan.sizes children ∧
      Lines (some parent) next (NodePlan.sizes children)
        (emitOptional parent next children).1 [] := by
  induction children generalizing next with
  | nil =>
    rw [emitOptional]
    exact ⟨rfl, nothing_emitted (by simpa using above)⟩
  | cons child rest ih =>
    obtain ⟨first, others⟩ := List.forall_mem_cons.mp emits
    rcases child.block_or_written with ⟨block, rfl⟩ | written
    · obtain ⟨restNext, restLines⟩ := ih others next above
      rw [emitOptional]
      refine ⟨restNext.trans (congrArg _ (Nat.zero_add _).symm), ?_⟩
      exact (Lines.own above (List.forall_mem_singleton.mpr ⟨rfl, rfl, rfl⟩)).append restLines
    · obtain ⟨firstNext, firstLines⟩ := first written next
      obtain ⟨restNext, restLines⟩ := ih others (next + child.size) (Nat.lt_add_right _ above)
      rw [emitOptional_written written, firstNext]
      refine ⟨by rw [restNext, NodePlan.sizes, Nat.add_assoc], ?_⟩
      have made := firstLines (some parent) (by simpa using above)
      rw [← List.append_assoc]
      exact (made.attach rfl rfl rfl).append restLines

theorem fillStatements_plain (index : Nat) (head : TagPlan) :
    ∀ line ∈ fillStatements index head,
      line.target = index ∧ line.arguments = [] ∧ line.assigned? = none := by
  refine List.forall_mem_append.mpr ⟨List.forall_mem_append.mpr ⟨?_, ?_⟩, ?_⟩
  · refine List.forall_mem_map.mpr fun plan _ => ?_
    cases plan.source <;> exact ⟨rfl, rfl, rfl⟩
  · exact List.forall_mem_map.mpr fun _ _ => ⟨rfl, rfl, rfl⟩
  · exact List.forall_mem_map.mpr fun _ _ => ⟨rfl, rfl, rfl⟩

/-- The children of an element whose lines make them. -/
structure Children (required optional : List NodePlan) : Prop where
  emits : ∀ child ∈ required, Emits child
  elements : ∀ child ∈ required, child.isElement = true
  written : ∀ child ∈ optional, (∀ block, child ≠ .block block) → Emits child

section

variable {number index : Nat} {head : TagPlan} {required optional : List NodePlan}

theorem emitNode_element (children : Children required optional) (next : Nat) :
    emitNode next (.element head required optional) =
      ⟨.create next head.schema.name :: (fillStatements next head ++
        ((emitRequired (next + 1) required).statements ++ (requiredLine next required ++
          (emitOptional next (next + 1 + NodePlan.sizes required) optional).1))), .made next,
        (emitOptional next (next + 1 + NodePlan.sizes required) optional).2⟩ := by
  obtain ⟨requiredNext, indices, -⟩ :=
    emitRequired_lines children.emits children.elements (next + 1)
  have same : (numbers (next + 1) required).isEmpty = required.isEmpty := by cases required <;> rfl
  rw [emitNode, requiredNext, indices, same]
  simp only [requiredLine, List.cons_append, List.append_assoc]

theorem requiredLine_lines (children : Children required optional) (next : Nat) :
    Lines (some next) (next + 1) (NodePlan.sizes required)
      ((emitRequired (next + 1) required).statements ++ requiredLine next required) [] := by
  obtain ⟨-, -, lines⟩ := emitRequired_lines children.emits children.elements (next + 1)
  have inner := lines (some next) (by simp)
  rw [requiredLine]
  split
  · next none =>
    cases List.isEmpty_iff.mp none
    rwa [List.append_nil]
  · exact inner.attach rfl rfl rfl

theorem Children.emits_element (children : Children required optional) :
    Emits (.element head required optional) := by
  intro next
  obtain ⟨optionalNext, optionalLines⟩ :=
    emitOptional_lines children.written (next + 1 + NodePlan.sizes required) (by omega : next < _)
  rw [emitNode_element children]
  refine ⟨optionalNext.trans (by rw [NodePlan.size]; omega), fun parent above => ?_⟩
  have filled := Lines.own (Nat.lt_succ_self next) (fillStatements_plain next head)
  have whole := filled.append ((requiredLine_lines children next).append optionalLines)
  rw [Nat.zero_add, List.append_assoc] at whole
  exact Lines.element above whole head.schema.name

theorem typed_children (typed : (NodePlan.element head required optional).requiresElements = true) :
    (∀ child ∈ required, child.isElement = true) ∧
      (∀ child ∈ required, child.requiresElements = true) ∧
      ∀ child ∈ optional, child.requiresElements = true := by
  rw [NodePlan.requiresElements, Bool.and_eq_true, Bool.and_eq_true, List.all_eq_true] at typed
  exact ⟨typed.1.1, NodePlan.requireElements_iff.mp typed.1.2,
    NodePlan.requireElements_iff.mp typed.2⟩

theorem emits_of_requiresElements (plan : NodePlan) (typed : plan.requiresElements = true)
    (written : ∀ block, plan ≠ .block block) : Emits plan := by
  match plan with
  | .element head required optional =>
    obtain ⟨elements, requiredTyped, optionalTyped⟩ := typed_children typed
    refine Children.emits_element ⟨fun child member => ?_, elements, fun child member => ?_⟩
    · refine emits_of_requiresElements child (requiredTyped child member) ?_
      rintro block rfl
      cases elements _ member
    · exact emits_of_requiresElements child (optionalTyped child member)
  | .text value span => exact fun next => ⟨rfl, fun _ => nothing_emitted⟩
  | .block block => exact absurd rfl (written block)

theorem children_of_requiresElements
    (typed : (NodePlan.element head required optional).requiresElements = true) :
    Children required optional := by
  obtain ⟨elements, requiredTyped, optionalTyped⟩ := typed_children typed
  refine ⟨fun child member => emits_of_requiresElements child (requiredTyped child member) ?_,
    elements, fun child member => emits_of_requiresElements child (optionalTyped child member)⟩
  rintro block rfl
  cases elements _ member

end

/-! ## The lines of one variable -/

theorem emitRequired_append {before : List NodePlan} (emits : ∀ child ∈ before, Emits child)
    (rest : List NodePlan) (next : Nat) :
    (emitRequired next (before ++ rest)).statements = (emitRequired next before).statements ++
      (emitRequired (next + NodePlan.sizes before) rest).statements := by
  induction before generalizing next with
  | nil => rw [emitRequired]; rfl
  | cons child others ih =>
    obtain ⟨first, more⟩ := List.forall_mem_cons.mp emits
    rw [List.cons_append, emitRequired, emitRequired, (first next).1, ih more, NodePlan.sizes,
      Nat.add_assoc, List.append_assoc]

theorem emitOptional_append {parent : Nat} {before : List NodePlan}
    (emits : ∀ child ∈ before, (∀ block, child ≠ .block block) → Emits child)
    (rest : List NodePlan) (next : Nat) :
    (emitOptional parent next (before ++ rest)).1 = (emitOptional parent next before).1 ++
      (emitOptional parent (next + NodePlan.sizes before) rest).1 := by
  induction before generalizing next with
  | nil => rw [emitOptional]; rfl
  | cons child others ih =>
    obtain ⟨first, more⟩ := List.forall_mem_cons.mp emits
    rcases child.block_or_written with ⟨block, rfl⟩ | written
    · rw [List.cons_append, emitOptional, emitOptional, ih more, NodePlan.sizes, NodePlan.size,
        Nat.zero_add, List.cons_append]
    · rw [List.cons_append, emitOptional_written written, emitOptional_written written,
        (first written next).1, ih more, NodePlan.sizes, Nat.add_assoc]
      simp only [List.append_assoc]

/-- Among the lines for optional children, the parent has those that add them. -/
theorem emitOptional_own {parent : Nat} {children : List NodePlan}
    (emits : ∀ child ∈ children, (∀ block, child ≠ .block block) → Emits child) (next : Nat)
    (above : parent < next) :
    (emitOptional parent next children).1.filter (fun line => line.target = parent) =
      childLines parent next children := by
  induction children generalizing next with
  | nil => rw [emitOptional]; rfl
  | cons child others ih =>
    obtain ⟨first, more⟩ := List.forall_mem_cons.mp emits
    rcases child.block_or_written with ⟨block, rfl⟩ | written
    · rw [emitOptional, List.filter_cons_of_pos (by simp [Statement.target]), ih more next above]
      rfl
    · obtain ⟨firstNext, firstLines⟩ := first written next
      have inside := (firstLines none (by simp)).filter_outside parent (by simp) (.inl above)
      rw [emitOptional_written written, List.filter_append, List.filter_append, inside, firstNext,
        ih more _ (Nat.lt_add_right _ above)]
      cases child with
      | block block => exact absurd rfl (written block)
      | element | text => simp [emitNode, childLines, Statement.target]

theorem sizes_append (before after : List NodePlan) :
    NodePlan.sizes (before ++ after) = NodePlan.sizes before + NodePlan.sizes after := by
  induction before with
  | nil => exact (Nat.zero_add _).symm
  | cons child rest ih =>
    rw [List.cons_append, NodePlan.sizes, NodePlan.sizes, ih, Nat.add_assoc]

section

variable {number index : Nat} {head : TagPlan} {required optional : List NodePlan}

theorem emitNode_own (children : Children required optional) :
    (emitNode number (.element head required optional)).statements.filter
      (fun line => line.target = number) = ownLines number head required optional := by
  have filled : (fillStatements number head).filter (fun line => line.target = number) =
      fillStatements number head :=
    List.filter_eq_self.mpr fun line member => by
      rw [(fillStatements_plain number head line member).1, decide_eq_true_eq]
  obtain ⟨-, -, lines⟩ := emitRequired_lines children.emits children.elements (number + 1)
  have inside := (lines none (by simp)).filter_outside number (by simp) (.inl (Nat.lt_succ_self _))
  have line : (requiredLine number required).filter (fun line => line.target = number) =
      requiredLine number required := by
    rw [requiredLine]
    split <;> simp [Statement.target]
  rw [emitNode_element children,
    List.filter_cons_of_pos (by simp [Statement.target]), List.filter_append, List.filter_append,
    List.filter_append, filled, inside, line, emitOptional_own children.written _ (by omega)]
  rfl

/-- The lines of a variable below an element are among those for its children. -/
theorem emitNode_below (children : Children required optional) (below : number < index) :
    (emitNode number (.element head required optional)).statements.filter
        (fun line => line.target = index) =
      (emitRequired (number + 1) required).statements.filter (fun line => line.target = index) ++
        (emitOptional number (number + 1 + NodePlan.sizes required) optional).1.filter
          (fun line => line.target = index) := by
  have filled := (Lines.own (Nat.lt_succ_self number)
    (fillStatements_plain number head)).filter_outside index (by simp; omega) (.inr below)
  have line : (requiredLine number required).filter (fun line => line.target = index) = [] := by
    rw [requiredLine]
    split <;> simp [Statement.target, Nat.ne_of_lt below]
  rw [emitNode_element children,
    List.filter_cons_of_neg (by simp [Statement.target, Nat.ne_of_lt below]), List.filter_append,
    List.filter_append, List.filter_append, filled, line]
  rfl

end

/-- Every element has the lines that its plan asks for, in the order of its children. -/
theorem Numbered.own {number index : Nat} {root node : NodePlan} {head : TagPlan}
    {required optional : List NodePlan} (numbered : Numbered number root index node)
    (isNode : node = .element head required optional) (typed : root.requiresElements = true) :
    (emitNode number root).statements.filter (fun line => line.target = index) =
        ownLines index head required optional ∧
      number ≤ index ∧ index < number + root.size := by
  induction numbered with
  | self number node =>
    subst isNode
    refine ⟨emitNode_own (children_of_requiresElements typed), Nat.le_refl _, ?_⟩
    rw [NodePlan.size]
    omega
  | @required number index _ before after others child _ inside ih =>
    have children := children_of_requiresElements typed
    obtain ⟨own, lower, upper⟩ := ih isNode ((typed_children typed).2.1 child (by simp))
    obtain ⟨emitsBefore, emitsRest⟩ := List.forall_mem_append.mp children.emits
    obtain ⟨isBefore, isRest⟩ := List.forall_mem_append.mp children.elements
    obtain ⟨emitsChild, emitsAfter⟩ := List.forall_mem_cons.mp emitsRest
    rw [NodePlan.size, sizes_append, NodePlan.sizes]
    refine ⟨?_, by omega, by omega⟩
    have first := (emitRequired_lines emitsBefore isBefore (number + 1)).2.2 none (by simp)
    have last := (emitRequired_lines emitsAfter (List.forall_mem_cons.mp isRest).2
      (number + 1 + NodePlan.sizes before + child.size)).2.2 none (by simp)
    have apart := (emitOptional_lines children.written (number + 1 + NodePlan.sizes
      (before ++ child :: after)) (by omega : number < _)).2
    rw [sizes_append, NodePlan.sizes] at apart
    rw [emitNode_below children (by omega), emitRequired_append emitsBefore, emitRequired,
      (emitsChild _).1, List.filter_append, List.filter_append, own,
      first.filter_outside index (by simp) (.inr lower),
      last.filter_outside index (by simp) (.inl upper), sizes_append, NodePlan.sizes,
      apart.filter_outside index (by simp; omega) (.inl (by omega))]
    simp
  | @optional number index _ others before after child _ inside ih =>
    have children := children_of_requiresElements typed
    obtain ⟨own, lower, upper⟩ := ih isNode ((typed_children typed).2.2 child (by simp))
    obtain ⟨emitsBefore, emitsRest⟩ := List.forall_mem_append.mp children.written
    obtain ⟨emitsChild, emitsAfter⟩ := List.forall_mem_cons.mp emitsRest
    have written : ∀ block, child ≠ .block block := by
      rintro block rfl
      cases inside
      cases isNode
    rw [NodePlan.size, sizes_append, NodePlan.sizes]
    refine ⟨?_, by omega, by omega⟩
    have apart :=
      (emitRequired_lines children.emits children.elements (number + 1)).2.2 none (by simp)
    have first := (emitOptional_lines emitsBefore (number + 1 + NodePlan.sizes others)
      (by omega : number < _)).2
    have last := (emitOptional_lines emitsAfter (number + 1 + NodePlan.sizes others +
      NodePlan.sizes before + child.size) (by omega : number < _)).2
    rw [emitNode_below children (by omega), apart.filter_outside index (by simp) (.inr (by omega)),
      emitOptional_append emitsBefore, emitOptional_written written, (emitsChild written _).1,
      List.filter_append, List.filter_append, List.filter_append, own,
      first.filter_outside index (by simp; omega) (.inr lower),
      last.filter_outside index (by simp; omega) (.inl upper)]
    rw [List.nil_append, List.nil_append, List.append_nil, List.filter_cons_of_neg, List.filter_nil,
      List.append_nil]
    rw [decide_eq_true_eq]
    exact Nat.ne_of_lt (by omega : number < index)

/-! ## Programs -/

def variableCount : NodePlan → Nat
  | .block _ => 1
  | plan => plan.size

def rootOperand : NodePlan → Operand
  | .text value _ => .text value
  | _ => .made 0

/-- The variables of a program form the tree of a plan. They are assigned once, in their order, and
no line mentions one before. The lines of an element are those that its plan asks for. All variables
but that of the root are added once as children, and no line of theirs comes behind. In the text of
a line, host code and literals apart, the names are those of its variables and fixed ones. -/
structure FormsTree (root : NodePlan) (program : Program) : Prop where
  assigned : program.statements.filterMap Statement.assigned? = List.range (variableCount root)
  known : program.statements.Pairwise fun line later =>
    ∀ index ∈ later.assigned?, index ∉ line.mentions
  mentioned : ∀ line ∈ program.statements, ∀ index ∈ line.mentions, index < variableCount root
  own : ∀ index head required optional,
    Numbered 0 root index (.element head required optional) →
      program.statements.filter (fun line => line.target = index) =
        ownLines index head required optional
  added : (program.statements.flatMap Statement.arguments).Perm
    (List.range' 1 (variableCount root - 1))
  filled : program.statements.Pairwise fun line later => later.target ∉ line.arguments
  result : program.result = rootOperand root
  texts : ∀ line ∈ program.statements, ∃ fragments,
    writtenText fragments = line.code program.output ∧
      otherNames fragments = line.mentions.map variableName ++
        if line.computesData then ["str"] else []

theorem Lines.formsTree {root : NodePlan} {program : Program}
    (lines : Lines none 0 (variableCount root) program.statements program.result.index?.toList)
    (own : ∀ index head required optional,
      Numbered 0 root index (.element head required optional) →
        program.statements.filter (fun line => line.target = index) =
          ownLines index head required optional)
    (result : program.result = rootOperand root)
    (counted : program.result.index? = if variableCount root = 0 then none else some 0) :
    FormsTree root program where
  assigned := by rw [lines.assigned, List.range_eq_range']
  known := lines.known
  mentioned line member index mentioned := by simpa using lines.mention_lt member mentioned
  own := own
  added := by
    have all := lines.arguments
    rw [counted] at all
    cases count : variableCount root with
    | zero => simpa [count] using all
    | succ rest =>
      rw [count, if_neg (Nat.succ_ne_zero rest), List.range'_succ] at all
      exact ((List.perm_append_singleton 0 _).symm.trans all).cons_inv
  filled := lines.filled
  result := result
  texts line _ := ⟨_, writtenText_fragments program.output line,
    otherNames_fragments program.output line⟩

theorem formsTree_of_emitNode {root : NodePlan} (typed : root.requiresElements = true)
    {program : Program} (statements : program.statements = (emitNode 0 root).statements)
    (result : program.result = (emitNode 0 root).operand) : FormsTree root program := by
  cases root with
  | text value span =>
    refine Lines.formsTree ?_ ?_ result (by rw [result]; rfl)
    · rw [statements, result]
      exact nothing_emitted (by simp)
    · intro index head required optional numbered
      cases numbered
  | block block =>
    refine Lines.formsTree ?_ ?_ result (by rw [result]; rfl)
    · rw [statements, result]
      exact ⟨by simp, rfl, List.forall_mem_singleton.mpr (.inr ⟨Nat.le_refl 0, Nat.one_pos⟩), .rfl,
        List.pairwise_singleton _ _, List.pairwise_singleton _ _⟩
    · intro index head required optional numbered
      cases numbered
  | element head required optional =>
    have emits := emits_of_requiresElements (.element head required optional) typed (by simp) 0
    have operand : (emitNode 0 (.element head required optional)).operand = .made 0 := by
      rw [emitNode]
    refine Lines.formsTree ?_ ?_ (result.trans operand) (by rw [result, operand]; rfl)
    · rw [statements, result]
      exact emits.2 none (by simp)
    · intro index _ _ _ numbered
      rw [statements]
      exact (numbered.own rfl typed).1

end Program

/-- The variables of an emitted program form the tree of its plan, whose required children are
elements, as they are in every plan that is compiled. -/
theorem emitted_variables_form_the_tree (plan : Plan) :
    (∀ filename text, plan.emit filename = .ok text → plan.root.requiresElements = true →
      ∃ program, plan.program = .ok program ∧ text = program.text filename ∧
        program.FormsTree plan.root) ∧
    ∀ source registry requested, compile source registry requested = .ok plan →
      plan.root.requiresElements = true := by
  refine ⟨?_, fun source registry requested compiled => (compile_fits compiled).requiresElements⟩
  intro filename text emitted typed
  obtain ⟨program, made, rfl⟩ := map_eq_ok.mp emitted
  obtain ⟨statements, result, -⟩ := Plan.program_eq_ok made
  exact ⟨program, made, rfl, Program.formsTree_of_emitNode typed statements result⟩

/-- An element that needs one that needs another, followed by a further child and a block. -/
theorem nestedRequirements_form_a_tree :
    ∃ registry plan text, Registry.ofSource "a in [K]; b with [a]; c with [b] K" = .ok registry ∧
      compile "<c><b><a/></b><a/>\x7bf(x)\x7d</c>" registry none = .ok plan ∧
      plan.emit "page" = .ok text ∧
      ∃ program, plan.program = .ok program ∧ text = program.text "page" ∧
        program.FormsTree plan.root ∧
        program.statements.filterMap Program.Statement.assigned? = [0, 1, 2, 3] := by
  have emits : yields (fun registry => yields (fun plan =>
      yields (fun _ => true) (plan.emit "page") && Program.variableCount plan.root == 4)
      (compile "<c><b><a/></b><a/>\x7bf(x)\x7d</c>" registry none))
      (Registry.ofSource "a in [K]; b with [a]; c with [b] K") = true := by
    decide +kernel
  obtain ⟨registry, declared, compiles⟩ := exists_of_yields emits
  obtain ⟨plan, compiled, both⟩ := exists_of_yields compiles
  rw [Bool.and_eq_true, beq_iff_eq] at both
  obtain ⟨text, emitted, -⟩ := exists_of_yields both.1
  obtain ⟨formsTree, typed⟩ := emitted_variables_form_the_tree plan
  obtain ⟨program, made, written, tree⟩ := formsTree "page" text emitted (typed _ _ _ compiled)
  refine ⟨registry, plan, text, declared, compiled, emitted, program, made, written, tree,
    tree.assigned.trans ?_⟩
  rw [both.2]
  rfl

end TypedMarkup
