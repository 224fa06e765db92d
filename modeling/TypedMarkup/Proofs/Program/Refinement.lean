import TypedMarkup.Program.Text
import TypedMarkup.Proofs.Plan.Blocks
import TypedMarkup.Proofs.Program.Execution

/-!
Contract: the program of a plan makes the document of the plan.

Owns: the proof that whatever a plan builds, its program returns, and nothing else. The program is a
flat list of statements on numbered variables, the builder a recursion over the plan. The invariant
between the two is `Makes`: the statements of a part assign the variables of one interval of
numbers, leave all others as they were, and what they make is read from that interval alone. So
nothing that comes later changes it.
-/

namespace TypedMarkup

namespace Program

open Statement (runAll)

section

variable {registry : Registry} {output : Option OutputType} {scope : Scope}

theorem runAll_append (first second : List Statement) (heap : Heap) :
    runAll registry output scope (first ++ second) heap =
      (runAll registry output scope first heap).bind (runAll registry output scope second) :=
  List.foldlM_append ..

theorem runAll_cons (statement : Statement) (rest : List Statement) (heap : Heap) :
    runAll registry output scope (statement :: rest) heap =
      (statement.run registry output scope heap).bind (runAll registry output scope rest) :=
  List.foldlM_cons ..

theorem toOption_eq_some {ε α : Type} {step : Except ε α} {value : α} (stepped : step = .ok value) :
    step.toOption = some value := by
  rw [stepped]
  rfl

/-! ## Filling an element -/

/-- The heap with an element in a variable that has no children yet. -/
def Heap.begin (heap : Heap) (index : Nat) (own : Element) : Heap :=
  heap.put index (.object ⟨own, [], []⟩)

variable {heap : Heap} {index : Nat} {own changed : Element}

theorem changeOwn_begin {step : Element → Option Element} (stepped : step own = some changed) :
    (heap.begin index own).changeOwn index step = some (heap.begin index changed) := by
  simp [Heap.changeOwn, Heap.change, Heap.begin, stepped]

structure Bare (schema : Schema) (element : Element) : Prop where
  sameSchema : element.schema = schema
  noRequired : element.required = []
  noOptional : element.optional = []

variable (registry output scope heap index) in
/-- Statements that each make the change of one item make the changes of all. -/
theorem runAll_changes {ε α : Type} {step : Element → α → Except ε Element} {emit : α → Statement}
    {items : List α} {schema : Schema}
    (each : ∀ item ∈ items, ∀ before after, Bare schema before → step before item = .ok after →
      Bare schema after ∧ (emit item).run registry output scope (heap.begin index before) =
        some (heap.begin index after))
    (bare : Bare schema own) (folded : items.foldlM step own = .ok changed) :
    Bare schema changed ∧
      runAll registry output scope (items.map emit) (heap.begin index own) =
        some (heap.begin index changed) := by
  induction items generalizing own with
  | nil =>
    rw [List.foldlM_nil, pure_eq_ok] at folded
    rw [← folded]
    exact ⟨bare, rfl⟩
  | cons item rest ih =>
    rw [List.foldlM_cons] at folded
    obtain ⟨next, stepped, further⟩ := bind_eq_ok.mp folded
    obtain ⟨bareNext, runs⟩ := each item List.mem_cons_self own next bare stepped
    rw [List.map_cons, runAll_cons, runs, Option.bind_some]
    apply ih _ bareNext further
    intro other member
    exact each other (List.mem_cons_of_mem item member)

variable {schema : Schema}

theorem Bare.eq_whole (bare : Bare schema own) : own = Object.whole ⟨own, [], []⟩ [] [] := by
  obtain ⟨-, noRequired, noOptional⟩ := bare
  cases own
  cases noRequired
  cases noOptional
  rfl

theorem Bare.setAttribute (bare : Bare schema own) {name : String} {value : Value}
    (set : own.setAttribute name value = .ok changed) : Bare schema changed := by
  obtain ⟨_, rfl⟩ := Document.setAttribute_eq_ok.mp set
  exact ⟨bare.sameSchema, bare.noRequired, bare.noOptional⟩

def attributeStatement (index : Nat) (plan : AttributePlan) : Statement :=
  match plan.source with
  | .literal written _ => .parseAttribute index plan.name written
  | .expression code => .coerceAttribute index plan.name code

theorem fillStatements_eq (index : Nat) (head : TagPlan) :
    fillStatements index head =
      head.attributes.map (attributeStatement index) ++
        head.data.map (fun plan => .setData index plan.name plan.source) ++
        head.events.map fun plan => .setEvent index plan.event plan.source :=
  rfl

theorem run_attribute {setting : AttributePlan} (fits : setting.Fits schema)
    (bare : Bare schema own) (set : Build.setAttribute scope own setting = .ok changed) :
    Bare schema changed ∧
      (attributeStatement index setting).run registry output scope (heap.begin index own) =
        some (heap.begin index changed) := by
  obtain ⟨type, typed, read⟩ := fits
  unfold Build.setAttribute at set
  unfold attributeStatement
  cases written : setting.source with
  | literal text value =>
    simp only [written] at set ⊢
    have accepted := mapError_eq_ok.mp set
    have typeFound : own.attributeType setting.name = .ok type :=
      Document.attributeType_eq_ok.mpr (bare.sameSchema ▸ typed)
    have parsed := Document.parseAttribute_eq_ok.mpr
      ⟨type, value, typeFound, read text value written, accepted⟩
    refine ⟨bare.setAttribute accepted, ?_⟩
    rw [Statement.run]
    apply changeOwn_begin
    exact toOption_eq_some parsed
  | expression code =>
    simp only [written] at set ⊢
    obtain ⟨found, evaluated, behindValue⟩ := bind_eq_ok.mp set
    obtain ⟨foundType, typeFound, behindType⟩ := bind_eq_ok.mp behindValue
    obtain ⟨fitted, coerced, accepted⟩ := bind_eq_ok.mp behindType
    have set := mapError_eq_ok.mp accepted
    have changes := Document.coerceAttribute_of_coerce (mapError_eq_ok.mp typeFound)
      (mapError_eq_ok.mp coerced) set
    refine ⟨bare.setAttribute set, ?_⟩
    rw [Statement.run, toOption_eq_some (mapError_eq_ok.mp evaluated), Option.bind_eq_bind,
      Option.bind_some]
    apply changeOwn_begin
    exact toOption_eq_some changes

theorem run_data {entry : DataPlan} (bare : Bare schema own)
    (set : Build.setData scope own entry = .ok changed) :
    Bare schema changed ∧
      (Statement.setData index entry.name entry.source).run registry output scope
        (heap.begin index own) = some (heap.begin index changed) := by
  have kept : ∀ text, Bare schema (own.setData entry.name text) :=
    fun _ => ⟨bare.sameSchema, bare.noRequired, bare.noOptional⟩
  unfold Build.setData at set
  cases written : entry.source with
  | literal text =>
    simp only [written] at set
    cases set
    refine ⟨kept text, ?_⟩
    rw [Statement.run, dataText?, Option.bind_eq_bind, Option.bind_some]
    apply changeOwn_begin
    rfl
  | expression code =>
    simp only [written] at set
    obtain ⟨found, evaluated, behindValue⟩ := bind_eq_ok.mp set
    obtain ⟨text, shown, same⟩ := bind_eq_ok.mp behindValue
    cases pure_eq_ok.mp same
    have given : dataText? scope (.expression code) = some text := by
      rw [dataText?, toOption_eq_some evaluated]
      exact toOption_eq_some shown
    refine ⟨kept text, ?_⟩
    rw [Statement.run, given, Option.bind_eq_bind, Option.bind_some]
    apply changeOwn_begin
    rfl

theorem handlerValue?_eq_some {source : TextSource} {value : Value}
    (found : Build.handlerValue scope source = .ok value) :
    handlerValue? scope source = some value := by
  cases source with
  | literal written =>
    cases found
    rfl
  | expression code =>
    obtain ⟨evaluated, run, rfl⟩ := map_eq_ok.mp found
    rw [handlerValue?, toOption_eq_some run]
    rfl

theorem run_event {handled : EventPlan} (bare : Bare schema own)
    (set : Build.setHandler output scope own handled = .ok changed) :
    Bare schema changed ∧
      (Statement.setEvent index handled.event handled.source).run registry output scope
        (heap.begin index own) = some (heap.begin index changed) := by
  unfold Build.setHandler at set
  obtain ⟨value, found, behindValue⟩ := bind_eq_ok.mp set
  have given := handlerValue?_eq_some (mapError_eq_ok.mp found)
  cases output with
  | none => exact absurd behindValue throw_ne_ok
  | some target =>
    obtain ⟨handler, bound, same⟩ := bind_eq_ok.mp behindValue
    cases pure_eq_ok.mp same
    refine ⟨⟨bare.sameSchema, bare.noRequired, bare.noOptional⟩, ?_⟩
    rw [Statement.run, given]
    simp only [Option.bind_eq_bind, Option.bind_some, toOption_eq_some (mapError_eq_ok.mp bound)]
    apply changeOwn_begin
    rfl

theorem runAll_fillStatements {head : TagPlan} {started : Element}
    (fits : head.Fits registry output)
    (begun : Build.startElement output scope head = .ok started) :
    Bare head.schema started ∧
      runAll registry output scope (fillStatements index head)
        (heap.begin index (.ofSchema head.schema output)) = some (heap.begin index started) := by
  unfold Build.startElement at begun
  obtain ⟨attributed, attributesSet, behindAttributes⟩ := bind_eq_ok.mp begun
  obtain ⟨annotated, dataSet, eventsSet⟩ := bind_eq_ok.mp behindAttributes
  have bareStart : Bare head.schema (.ofSchema head.schema output) := ⟨rfl, rfl, rfl⟩
  obtain ⟨bareAttributed, attributesRun⟩ := runAll_changes registry output scope heap index
    (fun setting member _ _ bare set => run_attribute (fits.attributes setting member) bare set)
    bareStart attributesSet
  obtain ⟨bareAnnotated, dataRun⟩ := runAll_changes registry output scope heap index
    (fun _ _ _ _ bare set => run_data bare set) bareAttributed (mapError_eq_ok.mp dataSet)
  obtain ⟨bareStarted, eventsRun⟩ := runAll_changes registry output scope heap index
    (fun _ _ _ _ bare set => run_event bare set) bareAnnotated eventsSet
  refine ⟨bareStarted, ?_⟩
  rw [fillStatements_eq, runAll_append, runAll_append, attributesRun, Option.bind_some, dataRun,
    Option.bind_some, eventsRun]

end

/-! ## Making nodes -/

/-- Statements make nodes in the variables from one number up to another: they can be carried out,
leave all other variables as they were, and the nodes are read from these variables alone. -/
structure Makes (registry : Registry) (output : Option OutputType) (scope : Scope)
    (statements : List Statement) (first last : Nat) (before after : Heap)
    (references : List Reference) (nodes : List Document.Node) : Prop where
  runs : runAll registry output scope statements before = some after
  ascends : first ≤ last
  kept : ∀ index, ¬ (first ≤ index ∧ index < last) → after index = before index
  reads : (after.between first last).Reads references nodes

/-- An element in a variable. Its children are read from the variables behind it, up to a number. -/
def Heap.Carries (heap : Heap) (parent next : Nat) (element : Element) : Prop :=
  ∃ object required optional, heap parent = some (.object object) ∧
    (heap.between (parent + 1) next).Reads object.required required ∧
    (heap.between (parent + 1) next).Reads object.optional optional ∧
    element = object.whole required optional

/-- Statements make the element in a variable into another one, and assign the variables from one
number up to another for its new children. -/
structure Changes (registry : Registry) (output : Option OutputType) (scope : Scope)
    (statements : List Statement) (parent first last : Nat) (before after : Heap)
    (changed : Element) : Prop where
  runs : runAll registry output scope statements before = some after
  ascends : first ≤ last
  kept : ∀ index, index ≠ parent → ¬ (first ≤ index ∧ index < last) → after index = before index
  carries : after.Carries parent last changed

section

variable {registry : Registry} {output : Option OutputType} {scope : Scope}
  {statements further : List Statement} {before middle after heap : Heap}
  {first split last parent next : Nat} {references others : List Reference}
  {nodes more : List Document.Node} {element changed : Element}

theorem Makes.nil (registry : Registry) (output : Option OutputType) (scope : Scope) (next : Nat)
    (heap : Heap) : Makes registry output scope [] next next heap heap [] [] :=
  ⟨rfl, Nat.le_refl next, fun _ _ => rfl, .nil⟩

theorem Makes.append
    (made : Makes registry output scope statements first split before middle references nodes)
    (madeFurther : Makes registry output scope further split last middle after others more) :
    Makes registry output scope (statements ++ further) first last before after
      (references ++ others) (nodes ++ more) := by
  have ascends := made.ascends
  have ascendsFurther := madeFurther.ascends
  refine ⟨?_, by omega, ?_, ?_⟩
  · rw [runAll_append, made.runs, Option.bind_some, madeFurther.runs]
  · intro index outside
    rw [madeFurther.kept index (by omega), made.kept index (by omega)]
  · have readsFirst := made.reads.widen (Nat.le_refl first) ascendsFurther
      fun index _ below => madeFurther.kept index (by omega)
    have readsFurther := madeFurther.reads.widen ascends (Nat.le_refl last) fun _ _ _ => rfl
    exact readsFirst.append readsFurther

theorem Changes.append {changedFurther : Element}
    (changes : Changes registry output scope statements parent first split before middle changed)
    (changesFurther :
      Changes registry output scope further parent split last middle after changedFurther) :
    Changes registry output scope (statements ++ further) parent first last before after
      changedFurther := by
  have ascends := changes.ascends
  have ascendsFurther := changesFurther.ascends
  refine ⟨?_, by omega, ?_, changesFurther.carries⟩
  · rw [runAll_append, changes.runs, Option.bind_some, changesFurther.runs]
  · intro index other outside
    rw [changesFurther.kept index other (by omega), changes.kept index other (by omega)]

/-- What is made behind an element leaves the element as it is. -/
theorem Makes.changes
    (made : Makes registry output scope statements first last before after references nodes)
    (behind : parent < first) (carries : before.Carries parent first element) :
    Changes registry output scope statements parent first last before after element := by
  obtain ⟨object, required, optional, held, requiredReads, optionalReads, same⟩ := carries
  have kept : ∀ index, parent + 1 ≤ index → index < first → after index = before index :=
    fun index _ below => made.kept index (by omega)
  refine ⟨made.runs, made.ascends, fun index _ outside => made.kept index outside, object, required,
    optional, ?_, ?_, ?_, same⟩
  · rw [made.kept parent (by omega), held]
  · exact requiredReads.widen (Nat.le_refl _) made.ascends kept
  · exact optionalReads.widen (Nat.le_refl _) made.ascends kept

/-- An element is made when its own variable and those of its children are. -/
theorem Changes.makes
    (changes : Changes registry output scope statements parent (parent + 1) last before after
      changed) :
    Makes registry output scope statements parent last before after [.made parent]
      [.element changed] := by
  have ascends := changes.ascends
  refine ⟨changes.runs, by omega, ?_, ?_⟩
  · intro index outside
    exact changes.kept index (by omega) (by omega)
  · obtain ⟨object, required, optional, held, requiredReads, optionalReads, rfl⟩ := changes.carries
    have own : after.between parent last parent = some (.object object) :=
      Heap.between_eq_some.mpr ⟨⟨Nat.le_refl parent, ascends⟩, held⟩
    exact .object own
      (requiredReads.widen (Nat.le_succ parent) (Nat.le_refl last) fun _ _ _ => rfl)
      (optionalReads.widen (Nat.le_succ parent) (Nat.le_refl last) fun _ _ _ => rfl) .nil

/-- A change of the object in a variable touches no other variable, so what is read from the others
stays. -/
theorem exists_changes {statement : Statement} {object longer : Object}
    {step : Object → Option Object} {required optional : List Document.Node}
    (run : statement.run registry output scope heap = heap.change parent step)
    (held : heap parent = some (.object object)) (stepped : step object = some longer)
    (requiredReads : (heap.between (parent + 1) next).Reads longer.required required)
    (optionalReads : (heap.between (parent + 1) next).Reads longer.optional optional)
    (same : changed = longer.whole required optional) :
    ∃ after, Changes registry output scope [statement] parent next next heap after changed := by
  have kept : ∀ index, index ≠ parent → heap.put parent (.object longer) index = heap index :=
    fun index other => Heap.put_of_ne other ..
  have keptBehind : ∀ index, parent + 1 ≤ index → index < next →
      heap.put parent (.object longer) index = heap index :=
    fun index above _ => kept index (by omega)
  refine ⟨heap.put parent (.object longer), ?_, Nat.le_refl next,
    fun index other _ => kept index other, longer, required, optional, Heap.put_self .., ?_, ?_,
    same⟩
  · have stepTaken : heap.change parent step = some (heap.put parent (.object longer)) := by
      simp only [Heap.change, held, stepped, Option.map_some]
    rw [runAll_cons, run, stepTaken]
    rfl
  · exact requiredReads.widen (Nat.le_refl _) (Nat.le_refl _) keptBehind
  · exact optionalReads.widen (Nat.le_refl _) (Nat.le_refl _) keptBehind

section

variable (carries : heap.Carries parent next element)

include carries

theorem setRequired_changes {indices : List Nat}
    (reads : (heap.between (parent + 1) next).Reads (indices.map .made) nodes)
    (set : element.setRequired (nodes.map .node) = .ok changed) :
    ∃ after, Changes registry output scope [.setRequired parent indices] parent next next heap after
      changed := by
  obtain ⟨object, required, optional, held, -, optionalReads, rfl⟩ := carries
  obtain ⟨named, rfl⟩ := Document.setRequired_eq_ok.mp set
  obtain ⟨seen, found, sameNames⟩ := reads.of_between.seenAll
  have ownNamed : (seen.map Value.node).map Document.requiredNameOf =
      object.own.schema.required := by
    rw [List.map_map] at named ⊢
    exact Eq.trans sameNames named
  have stepped : object.setRequired (indices.map .made) seen =
      some { object with required := indices.map .made } := by
    rw [Object.setRequired, toOption_eq_some (Document.setRequired_eq_ok.mpr ⟨ownNamed, rfl⟩)]
    rfl
  have run : (Statement.setRequired parent indices).run registry output scope heap =
      heap.change parent (·.setRequired (indices.map .made) seen) := by
    rw [Statement.run, found]
    rfl
  rw [Document.map_bound_node]
  exact exists_changes run held stepped reads optionalReads rfl

theorem bound_changes {indices : List Nat} (behind : parent < next)
    (reads : (heap.between (parent + 1) next).Reads (indices.map .made) nodes)
    (set : Build.setRequired element nodes = .ok changed) :
    ∃ after, Changes registry output scope
      (if indices.isEmpty then [] else [.setRequired parent indices]) parent next next heap after
      changed := by
  cases indices with
  | nil =>
    cases reads
    cases set
    exact ⟨heap, (Makes.nil ..).changes behind carries⟩
  | cons index rest =>
    cases nodes with
    | nil => cases reads
    | cons node others => exact setRequired_changes carries reads (mapError_eq_ok.mp set)

theorem append_changes {operand : Operand} {node : Document.Node}
    (reads : (heap.between (parent + 1) next).Reads [operand.reference] [node])
    (appended : element.append (.node node) = .ok changed) :
    ∃ after, Changes registry output scope [.append parent operand] parent next next heap after
      changed := by
  obtain ⟨object, required, optional, held, requiredReads, optionalReads, rfl⟩ := carries
  obtain ⟨constraint, present, member, rfl⟩ := Document.append_eq_ok.mp appended
  obtain ⟨⟨seen, found, sameTags, -⟩, -⟩ := reads.of_between.first
  rw [← sameTags] at member
  have accepted : ∃ longer, object.own.append (.node seen) = .ok longer :=
    ⟨_, Document.append_eq_ok.mpr ⟨constraint, present, member, rfl⟩⟩
  have stepped : object.append operand.reference seen =
      some { object with optional := object.optional ++ [operand.reference] } := by
    rw [Object.append, toOption_eq_some accepted.choose_spec]
    rfl
  have run : (Statement.append parent operand).run registry output scope heap =
      heap.change parent (·.append operand.reference seen) := by
    rw [Statement.run, found]
    rfl
  exact exists_changes run held stepped requiredReads (optionalReads.append reads) rfl

theorem extend_changes {block : BlockPlan}
    (appended : Build.appendBlock scope element block = .ok changed) :
    ∃ after, Changes registry output scope [.extend parent block.expression] parent next next heap
      after changed := by
  obtain ⟨object, required, optional, held, requiredReads, optionalReads, rfl⟩ := carries
  obtain ⟨found, nodes, evaluated, spliced, extended⟩ := Build.appendBlock_eq_ok.mp appended
  obtain ⟨accepted, rfl⟩ := Document.extend_eq_none.mp extended
  have taken : object.own.extend (nodes.map .node) = _ :=
    Document.extend_eq_none.mpr ⟨accepted, rfl⟩
  have stepped : object.extend ⟨nodes, none⟩ =
      some { object with optional := object.optional ++ nodes.map .node } := by
    rw [Object.extend, taken]
  have run : (Statement.extend parent block.expression).run registry output scope heap =
      heap.change parent (·.extend ⟨nodes, none⟩) := by
    rw [Statement.run, toOption_eq_some evaluated, ← spliced]
    rfl
  exact exists_changes run held stepped requiredReads
    (optionalReads.append (Heap.reads_map_node _ nodes)) rfl

end

end

/-! ## Nodes -/

/-- The statements of a plan make whatever the plan builds, from any number on. -/
def Realizes (registry : Registry) (output : Option OutputType) (scope : Scope) (plan : NodePlan) :
    Prop :=
  ∀ next before node, Build.buildNode output scope plan = .ok node →
    ∃ after, Makes registry output scope (emitNode next plan).statements next
      (emitNode next plan).next before after [(emitNode next plan).operand.reference] [node]

section

variable {registry : Registry} {output : Option OutputType} {scope : Scope} {before : Heap}
  {parent next : Nat} {plans : List NodePlan} {element : Element}

/-- The statements of a child that is no block come before the statement that adds it. -/
theorem emitOptional_written {plan : NodePlan} {rest : List NodePlan}
    (written : ∀ block, plan ≠ .block block) :
    emitOptional parent next (plan :: rest) =
      ((emitNode next plan).statements ++ ([.append parent (emitNode next plan).operand] ++
        (emitOptional parent (emitNode next plan).next rest).1),
        (emitOptional parent (emitNode next plan).next rest).2) := by
  cases plan with
  | block block => exact absurd rfl (written block)
  | element | text => rw [emitOptional]; rfl; exact written

theorem emitRequired_makes (next : Nat) (before : Heap) {nodes : List Document.Node}
    (each : ∀ plan ∈ plans, Realizes registry output scope plan)
    (elements : ∀ plan ∈ plans, plan.schemaName?.isSome)
    (built : plans.mapM (Build.buildNode output scope) = .ok nodes) :
    ∃ after, Makes registry output scope (emitRequired next plans).statements next
      (emitRequired next plans).next before after ((emitRequired next plans).indices.map .made)
      nodes := by
  induction plans generalizing next before nodes with
  | nil =>
    cases pure_eq_ok.mp built
    exact ⟨before, .nil ..⟩
  | cons plan rest ih =>
    rw [List.mapM_cons] at built
    obtain ⟨node, nodeBuilt, behindNode⟩ := bind_eq_ok.mp built
    obtain ⟨more, moreBuilt, same⟩ := bind_eq_ok.mp behindNode
    cases pure_eq_ok.mp same
    obtain ⟨realizes, realizesRest⟩ := List.forall_mem_cons.mp each
    obtain ⟨isElement, areElements⟩ := List.forall_mem_cons.mp elements
    obtain ⟨middle, made⟩ := realizes next before node nodeBuilt
    obtain ⟨after, madeRest⟩ := ih (emitNode next plan).next middle realizesRest
      areElements moreBuilt
    refine ⟨after, ?_⟩
    cases plan with
    | element head required optional =>
      rw [emitRequired]
      exact made.append madeRest
    | text | block => cases isElement

theorem emitOptional_changes {finished : Element}
    (each : ∀ plan ∈ plans, Realizes registry output scope plan) (behind : parent < next)
    (carries : before.Carries parent next element)
    (appended : Build.appendOptional output scope element plans = .ok finished) :
    ∃ after, Changes registry output scope (emitOptional parent next plans).1 parent next
      (emitOptional parent next plans).2 before after finished := by
  rw [Build.appendOptional_eq_foldlM] at appended
  induction plans generalizing next before element with
  | nil =>
    cases appended
    exact ⟨before, (Makes.nil ..).changes behind carries⟩
  | cons plan rest ih =>
    obtain ⟨realizes, realizesRest⟩ := List.forall_mem_cons.mp each
    rw [List.foldlM_cons] at appended
    obtain ⟨extended, added, restAppended⟩ := bind_eq_ok.mp appended
    rcases plan.block_or_written with ⟨block, rfl⟩ | written
    · obtain ⟨middle, changes⟩ := extend_changes carries (mapError_eq_ok.mp added)
      obtain ⟨after, changesRest⟩ :=
        ih realizesRest behind changes.carries restAppended
      exact ⟨after, changes.append changesRest⟩
    · rw [Build.appendChild_written written] at added
      obtain ⟨node, nodeBuilt, nodeAppended⟩ := bind_eq_ok.mp added
      -- The child is complete before the statement that adds it.
      obtain ⟨made, makes⟩ := realizes next before node nodeBuilt
      have ascends := makes.ascends
      have changesNothing := makes.changes behind carries
      have reads : (made.between (parent + 1) (emitNode next plan).next).Reads
          [(emitNode next plan).operand.reference] [node] :=
        makes.reads.widen behind (Nat.le_refl _) fun _ _ _ => rfl
      obtain ⟨middle, changes⟩ :=
        append_changes changesNothing.carries reads (mapError_eq_ok.mp nodeAppended)
      obtain ⟨after, changesRest⟩ :=
        ih realizesRest (by omega) changes.carries restAppended
      rw [emitOptional_written written]
      exact ⟨after, changesNothing.append (changes.append changesRest)⟩

theorem start_changes {head : TagPlan} {started : Element} (fits : head.Fits registry output)
    (begun : Build.startElement output scope head = .ok started) (index : Nat) (before : Heap) :
    Changes registry output scope (.create index head.schema.name :: fillStatements index head)
      index (index + 1) (index + 1) before (before.begin index started) started := by
  obtain ⟨bare, filled⟩ := runAll_fillStatements fits begun
  refine ⟨?_, Nat.le_refl _, ?_, ⟨started, [], []⟩, [], [], Heap.put_self .., .nil, .nil, ?_⟩
  · have created : (Statement.create index head.schema.name).run registry output scope before =
        some (before.begin index (.ofSchema head.schema output)) := by
      rw [Statement.run, fits.resolved]
      rfl
    rw [runAll_cons, created, Option.bind_some, filled]
  · intro other different _
    exact Heap.put_of_ne different ..
  · exact bare.eq_whole

theorem take_makes {block : BlockPlan} {node : Document.Node}
    (built : Build.buildNode output scope (.block block) = .ok node) (next : Nat) (before : Heap) :
    Makes registry output scope [.take next block.expression] next (next + 1) before
      (before.put next (.node node)) [.made next] [node] := by
  rw [Build.buildNode] at built
  obtain ⟨found, evaluated, behindValue⟩ := bind_eq_ok.mp built
  have single := Build.rootNode_eq_ok (mapError_eq_ok.mp behindValue)
  have own : (before.put next (.node node)).between next (next + 1) next = some (.node node) :=
    Heap.between_eq_some.mpr ⟨by omega, Heap.put_self ..⟩
  refine ⟨?_, Nat.le_succ next, ?_, .given own .nil⟩
  · rw [runAll_cons, Statement.run, toOption_eq_some (mapError_eq_ok.mp evaluated),
      Option.bind_eq_bind, Option.bind_some, single]
    rfl
  · intro index outside
    exact Heap.put_of_ne (by omega) ..

/-- The statements of a plan that fits make what the plan builds. -/
theorem emitNode_realizes {plan : NodePlan} (fits : plan.Fits registry output) :
    Realizes registry output scope plan := by
  induction fits with
  | text value span =>
    intro next before node built
    cases built
    rw [emitNode]
    exact ⟨before, rfl, Nat.le_refl next, fun _ _ => rfl, .node .nil⟩
  | block block =>
    intro next before node built
    rw [emitNode]
    exact ⟨_, take_makes built next before⟩
  | @element head required optional start names _ _ _ requiredHypothesis optionalHypothesis =>
    intro next before node built
    obtain ⟨started, children, bound, finished, begun, childrenBuilt, requiredSet, appended,
      rfl⟩ := Build.buildNode_element_eq_ok built
    have elements : ∀ child ∈ required, child.schemaName?.isSome := by
      intro child member
      have named := List.mem_map_of_mem (f := NodePlan.schemaName?) member
      rw [names] at named
      obtain ⟨name, -, isNamed⟩ := List.mem_map.mp named
      rw [← isNamed]
      rfl
    -- The variable of the element comes first, so everything else is made behind it.
    have changesStart := start_changes start begun next before
    obtain ⟨withChildren, made⟩ := emitRequired_makes (next + 1) (before.begin next started)
      requiredHypothesis elements childrenBuilt
    have ascends := made.ascends
    have changesNothing := made.changes (Nat.lt_succ_self next) changesStart.carries
    obtain ⟨withRequired, changesRequired⟩ := bound_changes changesNothing.carries (by omega)
      made.reads requiredSet
    obtain ⟨after, changesOptional⟩ := emitOptional_changes optionalHypothesis (by omega)
      changesRequired.carries appended
    have changes :=
      ((changesStart.append changesNothing).append changesRequired).append changesOptional
    rw [emitNode]
    exact ⟨after, changes.makes⟩

end

end Program

theorem Plan.program_eq_ok {plan : Plan} {program : Program} (made : plan.program = .ok program) :
    program.statements = (Program.emitNode 0 plan.root).statements ∧
      program.result = (Program.emitNode 0 plan.root).operand ∧ program.output = plan.output := by
  obtain ⟨names, _, same⟩ := bind_eq_ok.mp made
  cases pure_eq_ok.mp same
  exact ⟨rfl, rfl, rfl⟩

/-- The program that is written for a compiled plan returns the tree that the plan builds and no
other, whatever the names of the scope stand for. -/
theorem written_program_returns_what_is_built {source filename text : String} {registry : Registry}
    {requested : Option String} {plan : Plan} {scope : Scope} {node : Document.Node}
    (compiled : compile source registry requested = .ok plan)
    (written : plan.emit filename = .ok text) (built : plan.build scope = .ok node) :
    ∃ program, plan.program = .ok program ∧ text = program.text filename ∧
      ∀ tree, program.Returns registry scope tree ↔ tree = node := by
  obtain ⟨program, made, rfl⟩ := map_eq_ok.mp written
  obtain ⟨statements, result, output⟩ := Plan.program_eq_ok made
  obtain ⟨after, makes⟩ := Program.emitNode_realizes (compile_fits compiled) 0 (fun _ => none) node
    (mapError_eq_ok.mp built)
  have runs := makes.runs
  have reads := makes.reads.of_between
  rw [← statements, ← output] at runs
  rw [← result] at reads
  refine ⟨program, made, rfl, ?_⟩
  intro tree
  constructor
  · rintro ⟨heap, runsThere, readsThere⟩
    cases runs.symm.trans runsThere
    cases reads.unique readsThere
    rfl
  · rintro rfl
    exact ⟨after, runs, reads⟩

/-- A unit with required children at two levels, attributes of every kind and blocks. -/
def nestedDocument : String :=
  "<html><head><title>\"T\"</title><script async=\"true\"/></head>" ++
    "<body id=\"b\" tabindex=width data-n=\x7b width + 1 \x7d onload=\x7b \"go\" + \"()\" \x7d>" ++
    "\x7b items \x7d \"t\" <noscript>\x7b (i for i in items) \x7d</noscript></body></html>"

theorem nestedDocument_is_returned :
    ∃ registry plan scope node text,
      Registry.ofDeclarations (Html.structureElements ++ Html.metadataElements) = .ok registry ∧
        compile nestedDocument registry (some "String") = .ok plan ∧
        plan.emit "nested.html" = .ok text ∧ plan.build scope = .ok node ∧
        ∃ program, plan.program = .ok program ∧ text = program.text "nested.html" ∧
          ∀ tree, program.Returns registry scope tree ↔ tree = node := by
  have builds : yields (fun registry => yields (fun plan =>
      yields (fun _ => true) (plan.emit "nested.html") &&
        yields (fun _ => true) (plan.build (.ofTable [("width", .int 3),
          ("items", .list [.text "a", .node (.verbatim "&")])])))
      (compile nestedDocument registry (some "String")))
      (Registry.ofDeclarations (Html.structureElements ++ Html.metadataElements)) = true := by
    decide +kernel
  obtain ⟨registry, declared, compiles⟩ := exists_of_yields builds
  obtain ⟨plan, compiled, both⟩ := exists_of_yields compiles
  rw [Bool.and_eq_true] at both
  obtain ⟨text, written, -⟩ := exists_of_yields both.1
  obtain ⟨node, built, -⟩ := exists_of_yields both.2
  exact ⟨registry, plan, _, node, text, declared, compiled, written, built,
    written_program_returns_what_is_built compiled written built⟩

end TypedMarkup
