import TypedMarkup.Compile
import TypedMarkup.Proofs.Document.Changes
import TypedMarkup.Proofs.Failing
import TypedMarkup.Proofs.Plan.Blocks

/-!
Contract: a block is spliced up to its first failure.

Owns: `Adds`, how items are pulled and added one by one, `StepFails`, the ways in which the next
step behind them can fail and the failure that each comes to, `Splices`, what follows for the value
of a block, and the theorem that building an element splices its blocks in this way.

Every item is added before the next one is pulled, so the first step that fails decides, and nothing
is said of items behind it: they are not pulled. An error of a unit that an iteration raises stays
as it is, and any other failure is told at the block, but for a missing key that is too long to be
written.

Does not own: what host iterations do.
-/

namespace TypedMarkup

variable {node : Document.Node} {result : Except Failure Element}

/-! ## Items, one after another -/

/-- A node stands for itself, and a text for a text node. -/
inductive Value.StandsFor : Value → Document.Node → Prop where
  | node (node : Document.Node) : StandsFor (.node node) node
  | text {value : Value} {content : String} (isText : value.content? = some content) :
      StandsFor value (.text content)

theorem nodeOf?_eq_some {value : Value} :
    nodeOf? value = some node ↔ value.StandsFor node := by
  constructor
  · intro found
    unfold nodeOf? at found
    split at found
    · cases found
      exact .node node
    · obtain ⟨content, isText, rfl⟩ := Option.map_eq_some_iff.mp found
      exact .text isText
  · intro stands
    cases stands with
    | node node => rfl
    | @text value content isText =>
      have noNode : ∀ node, value ≠ .node node := by
        rintro node rfl
        cases isText
      unfold nodeOf?
      split
      · next node => exact absurd rfl (noNode node)
      · rw [isText]
        rfl

theorem nodeOf?_eq_none {value : Value} :
    nodeOf? value = none ↔ ∀ node, ¬ value.StandsFor node := by
  rw [Option.eq_none_iff_forall_not_mem]
  exact forall_congr' fun node => not_congr nodeOf?_eq_some

/-- Items are pulled from an iteration and added to an element, each before the next is pulled: the
nodes that they stand for, the memory behind the last pull, and the element with the nodes. -/
inductive Adds (reference : Nat) :
    Host.Memory → Element → List Document.Node → Host.Memory → Element → Prop where
  | nothing (memory : Host.Memory) (element : Element) :
      Adds reference memory element [] memory element
  | item {memory left after : Host.Memory} {element longer final : Element} {item : Value}
      {node : Document.Node} {nodes : List Document.Node}
      (pulled : (Host.pull reference).run memory = .ok (some item, left))
      (stands : item.StandsFor node) (added : element.append (.node node) = .ok longer)
      (further : Adds reference left longer nodes after final) :
      Adds reference memory element (node :: nodes) after final

/-- The next step fails: the iteration raises something, or its item is no node, or the element
refuses the node. -/
inductive StepFails (span : Span) (reference : Nat) (memory : Host.Memory) (element : Element) :
    Failure → Prop where
  | compileError {error : CompileError}
      (raised : (Host.pull reference).run memory = .error (.compile error)) :
      StepFails span reference memory element (.compile error)
  | told {cause : Failure} (raised : (Host.pull reference).run memory = .error cause)
      (noError : ∀ error, cause ≠ .compile error) (writable : cause ≠ .missingLongKey) :
      StepFails span reference memory element
        (.compile (.construction (.evaluationFailed cause.kindName cause.message) span))
  | untold (raised : (Host.pull reference).run memory = .error .missingLongKey) :
      StepFails span reference memory element .integerLength
  | noNode {item : Value} {left : Host.Memory}
      (pulled : (Host.pull reference).run memory = .ok (some item, left))
      (foreign : ∀ node, ¬ item.StandsFor node) :
      StepFails span reference memory element
        (.compile (.construction (.notNode item.typeName) span))
  | refused {item : Value} {left : Host.Memory} {node : Document.Node} {refusal : Refusal}
      (pulled : (Host.pull reference).run memory = .ok (some item, left))
      (stands : item.StandsFor node) (refused : element.append (.node node) = .error refusal) :
      StepFails span reference memory element
        (.compile (.construction (.itemRejected refusal.message) span))

/-- What comes of an iteration: all its items are added, or those before the first step that fails,
or more than a bound allows. -/
inductive Runs (span : Span) (bound reference : Nat) (start : Host.Memory) (element : Element) :
    List Document.Node → Except Failure Element → Prop where
  | finished {nodes : List Document.Node} {after final : Host.Memory} {extended : Element}
      (adds : Adds reference start element nodes after extended) (few : nodes.length < bound)
      (ended : (Host.pull reference).run after = .ok (none, final)) :
      Runs span bound reference start element nodes (.ok extended)
  | stopped {nodes : List Document.Node} {after : Host.Memory} {longer : Element}
      {failure : Failure} (adds : Adds reference start element nodes after longer)
      (few : nodes.length < bound) (fails : StepFails span reference after longer failure) :
      Runs span bound reference start element nodes (.error failure)
  | endless {nodes : List Document.Node} {after : Host.Memory} {longer : Element}
      (adds : Adds reference start element nodes after longer) (many : nodes.length = bound) :
      Runs span bound reference start element nodes (.error .tooDeep)

section

variable {span : Span} {reference bound : Nat} {memory : Host.Memory} {element : Element}
  {nodes : List Document.Node}

/-- Items are added behind what an element has, and nothing else changes. -/
theorem Adds.eq_extended {after : Host.Memory} {final : Element}
    (adds : Adds reference memory element nodes after final) :
    final = { element with optional := element.optional ++ nodes } := by
  induction adds with
  | nothing => simp
  | item _ _ added _ ih =>
    obtain ⟨_, _, _, rfl⟩ := Document.append_eq_ok.mp added
    simpa using ih

theorem iterationFailure_of_pull {cause : Failure}
    (raised : (Host.pull reference).run memory = .error cause) :
    StepFails span reference memory element (iterationFailure span cause) := by
  cases cause with
  | compile error => exact .compileError raised
  | missingLongKey => exact .untold raised
  | _ => exact .told raised (by rintro _ ⟨⟩) (by rintro ⟨⟩)

theorem Runs.item {left : Host.Memory} {longer : Element} {item : Value}
    (pulled : (Host.pull reference).run memory = .ok (some item, left))
    (stands : item.StandsFor node) (added : element.append (.node node) = .ok longer)
    (runs : Runs span bound reference left longer nodes result) :
    Runs span (bound + 1) reference memory element (node :: nodes) result := by
  cases runs with
  | finished adds few ended =>
    exact .finished (.item pulled stands added adds) (Nat.succ_lt_succ few) ended
  | stopped adds few fails =>
    exact .stopped (.item pulled stands added adds) (Nat.succ_lt_succ few) fails
  | endless adds many => exact .endless (.item pulled stands added adds) (congrArg Nat.succ many)

/-- An iteration runs to its end or to a failure. -/
theorem exists_runs (span : Span) (bound reference : Nat) (memory : Host.Memory)
    (element : Element) :
    ∃ nodes, Runs span bound reference memory element nodes
      (Build.appendPending span bound element (.items reference memory)) := by
  induction bound generalizing memory element with
  | zero => exact ⟨[], .endless (.nothing memory element) rfl⟩
  | succ bound ih =>
    rw [Build.appendPending, Pending.next]
    have few : ([] : List Document.Node).length < bound + 1 := Nat.succ_pos bound
    cases pulled : (Host.pull reference).run memory with
    | error cause =>
      exact ⟨[], .stopped (.nothing memory element) few (iterationFailure_of_pull pulled)⟩
    | ok next =>
      obtain ⟨next, left⟩ := next
      cases next with
      | none => exact ⟨[], .finished (.nothing memory element) few pulled⟩
      | some item =>
        dsimp only
        cases stands : nodeOf? item with
        | none =>
          exact ⟨[], .stopped (.nothing memory element) few
            (.noNode pulled (nodeOf?_eq_none.mp stands))⟩
        | some node =>
          have standsFor := nodeOf?_eq_some.mp stands
          dsimp only
          cases added : element.append (.node node) with
          | error refusal =>
            exact ⟨[], .stopped (.nothing memory element) few
              (.refused pulled standsFor added)⟩
          | ok longer =>
            obtain ⟨nodes, runs⟩ := ih left longer
            exact ⟨node :: nodes, runs.item pulled standsFor added⟩

theorem appendPending_of_adds {after : Host.Memory} {longer : Element}
    (adds : Adds reference memory element nodes after longer) (rest : Nat) :
    Build.appendPending span (nodes.length + rest) element (.items reference memory) =
      Build.appendPending span rest longer (.items reference after) := by
  induction adds with
  | nothing => rw [List.length_nil, Nat.zero_add]
  | item pulled stands added _ ih =>
    rw [List.length_cons, Nat.add_right_comm, Build.appendPending, Pending.next, pulled]
    dsimp only
    rw [nodeOf?_eq_some.mpr stands]
    dsimp only
    rw [added]
    exact ih

theorem appendPending_of_stepFails {failure : Failure}
    (fails : StepFails span reference memory element failure) (rest : Nat) :
    Build.appendPending span (rest + 1) element (.items reference memory) = .error failure := by
  rw [Build.appendPending, Pending.next]
  cases fails with
  | compileError raised | untold raised => rw [raised]; rfl
  | @told cause raised noError writable =>
    rw [raised]
    cases cause with
    | compile error => exact absurd rfl (noError error)
    | missingLongKey => exact absurd rfl writable
    | _ => rfl
  | noNode pulled foreign =>
    rw [pulled]
    dsimp only
    rw [nodeOf?_eq_none.mpr foreign]
  | refused pulled stands refused =>
    rw [pulled]
    dsimp only
    rw [nodeOf?_eq_some.mpr stands]
    dsimp only
    rw [refused]

/-- Only one thing can come of an iteration. -/
theorem Runs.eq_appendPending (runs : Runs span bound reference memory element nodes result) :
    Build.appendPending span bound element (.items reference memory) = result := by
  cases runs with
  | finished adds few ended =>
    obtain ⟨rest, rfl⟩ := Nat.exists_eq_add_of_lt few
    rw [Nat.add_assoc, appendPending_of_adds adds, Build.appendPending, Pending.next, ended]
  | stopped adds few fails =>
    obtain ⟨rest, rfl⟩ := Nat.exists_eq_add_of_lt few
    rw [Nat.add_assoc, appendPending_of_adds adds, appendPending_of_stepFails fails]
  | endless adds many =>
    subst many
    exact appendPending_of_adds adds 0

end

/-! ## The value of a block -/

/-- A value is no node by itself, and its items can be pulled from an iteration. -/
structure Evaluated.Starts (found : Evaluated) (reference : Nat) (start : Host.Memory) : Prop where
  foreign : ∀ node, ¬ found.value.StandsFor node
  iterable : found.value.isIterable = true
  begun : (Host.iterate found.value).run found.memory = .ok (reference, start)

/-- What comes of splicing the value of a block into an element: the nodes that are added, and the
element with them or a failure. -/
inductive Splices (span : Span) (element : Element) (found : Evaluated) :
    List Document.Node → Except Failure Element → Prop where
  | single {node : Document.Node} {extended : Element} (stands : found.value.StandsFor node)
      (added : element.append (.node node) = .ok extended) :
      Splices span element found [node] (.ok extended)
  | singleRefused {node : Document.Node} {refusal : Refusal} (stands : found.value.StandsFor node)
      (refused : element.append (.node node) = .error refusal) :
      Splices span element found []
        (.error (.compile (.construction (.itemRejected refusal.message) span)))
  | notIterable (foreign : ∀ node, ¬ found.value.StandsFor node)
      (rigid : found.value.isIterable = false) :
      Splices span element found []
        (.error (.compile (.construction (.notSpliceable found.value.typeName) span)))
  | unstarted {cause : Failure} (foreign : ∀ node, ¬ found.value.StandsFor node)
      (iterable : found.value.isIterable = true)
      (raised : (Host.iterate found.value).run found.memory = .error cause) :
      Splices span element found [] (.error (cause.toldAt span))
  | iterated {reference : Nat} {start : Host.Memory} {nodes : List Document.Node}
      {result : Except Failure Element} (starts : found.Starts reference start)
      (runs : Runs span Host.steps reference start element nodes result) :
      Splices span element found nodes result

section

variable {scope : Scope} {element : Element} {block : BlockPlan} {found : Evaluated} {span : Span}

theorem appendBlock_of_evaluated (evaluated : block.expression.evaluate scope = .ok found) :
    Build.appendBlock scope element block =
      (Pending.ofValue found block.expression.span >>=
        Build.appendPending block.expression.span Host.steps element) := by
  rw [Build.appendBlock, evaluated]
  rfl

theorem appendPending_single (node : Document.Node) :
    Build.appendPending span Host.steps element (.single node) =
      (element.append (.node node)).mapError fun refusal =>
        .compile (.construction (.itemRejected refusal.message) span) := by
  have two : Host.steps = (Host.steps - 2) + 2 := rfl
  rw [two, Build.appendPending, Pending.next]
  dsimp only
  cases element.append (.node node) with
  | ok | error => rfl

theorem ofValue_of_standsFor (stands : found.value.StandsFor node) :
    Pending.ofValue found span = .ok (.single node) := by
  rw [Pending.ofValue, nodeOf?_eq_some.mpr stands]

theorem ofValue_of_rigid (foreign : ∀ node, ¬ found.value.StandsFor node)
    (rigid : found.value.isIterable = false) :
    Pending.ofValue found span =
      .error (.compile (.construction (.notSpliceable found.value.typeName) span)) := by
  rw [Pending.ofValue, nodeOf?_eq_none.mpr foreign, rigid]
  rfl

theorem ofValue_of_raised {cause : Failure} (foreign : ∀ node, ¬ found.value.StandsFor node)
    (iterable : found.value.isIterable = true)
    (raised : (Host.iterate found.value).run found.memory = .error cause) :
    Pending.ofValue found span = .error (cause.toldAt span) := by
  rw [Pending.ofValue, nodeOf?_eq_none.mpr foreign, iterable, raised]
  rfl

theorem ofValue_of_starts {reference : Nat} {start : Host.Memory}
    (starts : found.Starts reference start) :
    Pending.ofValue found span = .ok (.items reference start) := by
  rw [Pending.ofValue, nodeOf?_eq_none.mpr starts.foreign, starts.iterable, starts.begun]
  rfl

/-- Whatever the value of a block is, something comes of splicing it. -/
theorem exists_splices (evaluated : block.expression.evaluate scope = .ok found) :
    ∃ nodes, Splices block.expression.span element found nodes
      (Build.appendBlock scope element block) := by
  rw [appendBlock_of_evaluated evaluated]
  cases stands : nodeOf? found.value with
  | some node =>
    have standsFor := nodeOf?_eq_some.mp stands
    rw [ofValue_of_standsFor standsFor]
    change ∃ nodes, Splices _ element found nodes (Build.appendPending _ _ element (.single node))
    rw [appendPending_single]
    cases added : element.append (.node node) with
    | ok extended => exact ⟨[node], .single standsFor added⟩
    | error refusal => exact ⟨[], .singleRefused standsFor added⟩
  | none =>
    have foreign := nodeOf?_eq_none.mp stands
    cases iterable : found.value.isIterable with
    | false =>
      rw [ofValue_of_rigid foreign iterable]
      exact ⟨[], .notIterable foreign iterable⟩
    | true =>
      cases begun : (Host.iterate found.value).run found.memory with
      | error cause =>
        rw [ofValue_of_raised foreign iterable begun]
        exact ⟨[], .unstarted foreign iterable begun⟩
      | ok started =>
        obtain ⟨reference, start⟩ := started
        have starts : found.Starts reference start := ⟨foreign, iterable, begun⟩
        rw [ofValue_of_starts starts]
        obtain ⟨nodes, runs⟩ :=
          exists_runs block.expression.span Host.steps reference start element
        exact ⟨nodes, .iterated starts runs⟩

/-- Only one thing can come of splicing a value. -/
theorem Splices.eq_appendBlock {nodes : List Document.Node}
    (evaluated : block.expression.evaluate scope = .ok found)
    (splices : Splices block.expression.span element found nodes result) :
    Build.appendBlock scope element block = result := by
  rw [appendBlock_of_evaluated evaluated]
  cases splices with
  | @single node extended stands added =>
    rw [ofValue_of_standsFor stands]
    refine (appendPending_single node).trans ?_
    rw [added]
    rfl
  | @singleRefused node refusal stands refused =>
    rw [ofValue_of_standsFor stands]
    refine (appendPending_single node).trans ?_
    rw [refused]
    rfl
  | notIterable foreign rigid =>
    rw [ofValue_of_rigid foreign rigid]
    rfl
  | unstarted foreign iterable raised =>
    rw [ofValue_of_raised foreign iterable raised]
    rfl
  | iterated starts runs =>
    rw [ofValue_of_starts starts]
    exact runs.eq_appendPending

/-- What is added stands behind what the element has, in the order of the items. -/
theorem Splices.eq_extended {nodes : List Document.Node} {extended : Element}
    (splices : Splices span element found nodes (.ok extended)) :
    extended = { element with optional := element.optional ++ nodes } := by
  cases splices with
  | single stands added =>
    obtain ⟨_, _, _, same⟩ := Document.append_eq_ok.mp added
    exact same
  | iterated starts runs =>
    cases runs with
    | finished adds => exact adds.eq_extended

end

/-! ## Blocks among the children of an element -/

namespace Build

variable {output : Option OutputType} {scope : Scope}

/-- An element as it is when its first children have been added. -/
def Reaches (output : Option OutputType) (scope : Scope) (head : TagPlan)
    (required before : List NodePlan) (element : Element) : Prop :=
  ∃ started children bound, startElement output scope head = .ok started ∧
    buildRequired output scope required = .ok children ∧
    setRequired started children = .ok bound ∧
    appendOptional output scope bound before = .ok element

theorem appendOptional_append (element : Element) (before after : List NodePlan) :
    appendOptional output scope element (before ++ after) =
      (appendOptional output scope element before >>= fun extended =>
        appendOptional output scope extended after) := by
  simp only [appendOptional_eq_foldlM, List.foldlM_append]

theorem Reaches.buildNode_append {head : TagPlan} {required before : List NodePlan}
    {element : Element}
    (reaches : Reaches output scope head required before element) (after : List NodePlan) :
    buildNode output scope (.element head required (before ++ after)) =
      (appendOptional output scope element after).map .element := by
  obtain ⟨started, children, bound, begun, requiredBuilt, requiredSet, added⟩ := reaches
  rw [buildNode, begun, requiredBuilt]
  change (setRequired started children >>= _) = _
  rw [requiredSet]
  change (appendOptional output scope bound (before ++ after) >>= _) = _
  rw [appendOptional_append, added]
  change (appendOptional output scope element after >>= _) = _
  cases appendOptional output scope element after <;> rfl

theorem Reaches.block {head : TagPlan} {required before : List NodePlan}
    {element extended : Element} {block : BlockPlan}
    (reaches : Reaches output scope head required before element)
    (added : appendBlock scope element block = .ok extended) :
    Reaches output scope head required (before ++ [.block block]) extended := by
  obtain ⟨started, children, bound, begun, requiredBuilt, requiredSet, earlier⟩ := reaches
  refine ⟨started, children, bound, begun, requiredBuilt, requiredSet, ?_⟩
  rw [appendOptional_append, earlier]
  change appendOptional output scope element [.block block] = _
  rw [appendOptional, added]
  rfl

theorem Reaches.buildNode_of_block_error {head : TagPlan} {required before : List NodePlan}
    {element : Element} {block : BlockPlan} {failure : Failure}
    (reaches : Reaches output scope head required before element)
    (failed : appendBlock scope element block = .error failure) (after : List NodePlan) :
    buildNode output scope (.element head required (before ++ .block block :: after)) =
      .error (.failed failure) := by
  rw [reaches.buildNode_append, appendOptional, failed]
  rfl

end Build

/-- A block is spliced into its element item by item, up to its end or the first step that fails. If
all goes well, its nodes stand behind the children before it, in the order of the items, and
building goes on with the next child. Otherwise building stops with the failure of that step. -/
theorem splicing_stops_at_the_first_failure {output : Option OutputType} {scope : Scope}
    {head : TagPlan} {required before after : List NodePlan} {element : Element}
    {block : BlockPlan} {found : Evaluated}
    (reaches : Build.Reaches output scope head required before element)
    (evaluated : block.expression.evaluate scope = .ok found) :
    (∀ result, Build.appendBlock scope element block = result ↔
      ∃ nodes, Splices block.expression.span element found nodes result) ∧
    (∀ nodes extended, Splices block.expression.span element found nodes (.ok extended) →
      extended = { element with optional := element.optional ++ nodes } ∧
        Build.Reaches output scope head required (before ++ [.block block]) extended) ∧
    ∀ nodes failure, Splices block.expression.span element found nodes (.error failure) →
      Build.buildNode output scope (.element head required (before ++ .block block :: after)) =
          .error (.failed failure) ∧
        ∀ source, Plan.build ⟨.element head required (before ++ .block block :: after), output,
          source⟩ scope = .error (Build.withSource source failure) := by
  refine ⟨?_, ?_, ?_⟩
  · intro result
    constructor
    · rintro rfl
      exact exists_splices evaluated
    · rintro ⟨nodes, splices⟩
      exact splices.eq_appendBlock evaluated
  · intro nodes extended splices
    exact ⟨splices.eq_extended, reaches.block (splices.eq_appendBlock evaluated)⟩
  · intro nodes failure splices
    have failed := reaches.buildNode_of_block_error (splices.eq_appendBlock evaluated) after
    refine ⟨failed, fun source => ?_⟩
    rw [Plan.build, failed]
    rfl

theorem pull_first {memory : Host.Memory} {reference : Nat} {item : Value} {rest : List Value}
    (stands : memory.iterations[reference]? = some (.items (item :: rest) none)) :
    (Host.pull reference).run memory = .ok (some item, { memory with
      iterations := memory.iterations.setIfInBounds reference (.items rest none) }) :=
  pull_items stands

def mixedItems : Scope := ⟨[("xs", .list [.text "a", .int 5, .none])]⟩

def paragraph : TagPlan := ⟨⟨"p", [], [], some "FlowContent", []⟩, [], [], [], .origin⟩

def itemsBlock : BlockPlan := ⟨.path "xs" [] .origin, "p", some "FlowContent"⟩

/-- The first item is a text, and neither of the others is a node. -/
theorem mixedItems_stop_at_the_number :
    Build.buildNode none mixedItems (.element paragraph [] [.block itemsBlock]) =
      .error (.failed (.compile (.construction (.notNode "int") .origin))) := by
  have reaches : Build.Reaches none mixedItems paragraph [] [] (.ofSchema paragraph.schema none) :=
    ⟨_, _, _, rfl, rfl, rfl, rfl⟩
  have evaluated : itemsBlock.expression.evaluate mixedItems =
      .ok ⟨.list [.text "a", .int 5, .none], .start mixedItems.entries⟩ := rfl
  have splices : Splices itemsBlock.expression.span (.ofSchema paragraph.schema none)
      ⟨.list [.text "a", .int 5, .none], .start mixedItems.entries⟩ [.text "a"]
      (.error (.compile (.construction (.notNode "int") .origin))) := by
    refine .iterated ⟨nodeOf?_eq_none.mp rfl, rfl, rfl⟩ ?_
    exact .stopped (.item (pull_first rfl) (.text rfl) rfl (.nothing _ _)) (by decide)
      (@StepFails.noNode _ _ _ _ (.int 5) _ (pull_first rfl) (nodeOf?_eq_none.mp rfl))
  exact ((splicing_stops_at_the_first_failure reaches evaluated).2.2 _ _ splices).1

/-- A missing key that is too long to be written gets out of a block as another failure, which is no
error of the unit. -/
theorem longKey_of_item_is_not_told :
    ∃ registry plan,
      Registry.ofSource "p in [FlowContent] with FlowContent" = .ok registry ∧
        compile "<p>\x7b(\x7b\x7d[n * n] for x in 'a')\x7d</p>" registry none = .ok plan ∧
        plan.build (.ofTable [("n", .int (Nat.pow 10 2200))]) = .error .integerLength ∧
        ∀ error, Failure.integerLength ≠ .compile error := by
  have stops : yields (fun registry => yields (fun plan =>
      fails (fun failure => match failure with | .integerLength => true | _ => false)
        (plan.build (.ofTable [("n", .int (Nat.pow 10 2200))])))
      (compile "<p>\x7b(\x7b\x7d[n * n] for x in 'a')\x7d</p>" registry none))
      (Registry.ofSource "p in [FlowContent] with FlowContent") = true := by
    decide +kernel
  obtain ⟨registry, declared, compiles⟩ := exists_of_yields stops
  obtain ⟨plan, compiled, fails⟩ := exists_of_yields compiles
  obtain ⟨failure, failed, same⟩ := exists_of_fails fails
  refine ⟨registry, plan, declared, compiled, ?_, by rintro _ ⟨⟩⟩
  split at same
  · exact failed
  · cases same

end TypedMarkup
