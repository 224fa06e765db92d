import TypedMarkup.Proofs.Plan.Blameless

/-!
Contract: what the further children of an element come to.

Owns: `Expression.Yields`, the nodes that a block stands for, and that an element takes the nodes of
a block, or of written children, as it takes any list of nodes: `Document.ElementOf.extend` is what
both have in common.
-/

namespace TypedMarkup

variable {span : Span} {scope : Scope} {element extended : Element} {nodes : List Document.Node}
  {memory : Host.Memory} {name : String}

/-- Taking nodes behind others changes nothing of what is taken. -/
theorem Pending.all_taken (span : Span) (fuel : Nat) (taken : List Document.Node)
    (pending : Pending) :
    pending.all span fuel taken =
      ⟨taken.reverse ++ (pending.all span fuel []).nodes, (pending.all span fuel []).finish⟩ := by
  induction fuel generalizing taken pending with
  | zero => simp [all]
  | succ fuel ih =>
    rw [all, all]
    split
    · simp
    · simp
    · next node rest _ =>
      rw [ih (node :: taken), ih [node]]
      simp

namespace Build

/-- The nodes that a block adds are those that it is spliced into. -/
theorem appendPending_eq_ok {fuel : Nat} {pending : Pending} :
    appendPending span fuel element pending = .ok extended ↔
      (pending.all span fuel []).finish = none ∧
        element.extend ((pending.all span fuel []).nodes.map .node) = (extended, none) := by
  induction fuel generalizing element pending with
  | zero => simp [appendPending, Pending.all]
  | succ fuel ih =>
    rw [appendPending, Pending.all]
    cases taken : pending.next span with
    | error failure => simp
    | ok next =>
      cases next with
      | none => simp [Document.ElementOf.extend]
      | some entry =>
        simp only [Pending.all_taken span fuel [entry.1], List.reverse_singleton,
          List.singleton_append, List.map_cons, Document.ElementOf.extend]
        cases element.append (.node entry.1) with
        | ok longer => exact ih
        | error refusal => simp

theorem rootNode_eq_ok {spliced : Spliced} {node : Document.Node}
    (found : rootNode span spliced = .ok node) : spliced = ⟨[node], none⟩ := by
  obtain ⟨nodes, finish⟩ := spliced
  unfold rootNode at found
  split at found
  · cases found
  · next unfailing =>
    split at found
    · next single =>
      cases found
      rw [Spliced.mk.injEq]
      exact ⟨single, unfailing⟩
    · cases found

theorem appendBlock_eq_ok {block : BlockPlan} :
    appendBlock scope element block = .ok extended ↔
      ∃ found nodes, block.expression.evaluate scope = .ok found ∧
        splice found block.expression.span = ⟨nodes, none⟩ ∧
        element.extend (nodes.map .node) = (extended, none) := by
  simp only [appendBlock, bind_eq_ok, appendPending_eq_ok]
  constructor
  · rintro ⟨found, evaluated, pending, begun, unfailing, added⟩
    refine ⟨found, _, evaluated, ?_, added⟩
    rw [splice, begun, ← unfailing]
  · rintro ⟨found, nodes, evaluated, spliced, added⟩
    unfold splice at spliced
    split at spliced
    · next pending begun =>
      refine ⟨found, evaluated, pending, begun, ?_, ?_⟩
      · rw [spliced]
      · rw [spliced]
        exact added
    · cases spliced

/-- Children that are no blocks are built one by one and added. -/
theorem appendOptional_eq_ok {output : Option OutputType} {plans : List NodePlan}
    (written : ∀ plan ∈ plans, ∀ block, plan ≠ .block block) :
    appendOptional output scope element plans = .ok extended ↔
      ∃ nodes, List.Forall₂ (fun plan node => buildNode output scope plan = .ok node) plans nodes ∧
        element.extend (nodes.map .node) = (extended, none) := by
  rw [appendOptional_eq_foldlM]
  induction plans generalizing element with
  | nil => simp [pure_eq_ok, Document.ElementOf.extend]
  | cons plan rest ih =>
    obtain ⟨writtenHere, writtenFurther⟩ := List.forall_mem_cons.mp written
    rw [List.foldlM_cons, appendChild_written writtenHere, bind_assoc]
    simp only [bind_eq_ok, structurally, mapError_eq_ok, ih writtenFurther,
      List.forall₂_cons_left_iff]
    constructor
    · rintro ⟨node, built, longer, added, nodes, builtRest, addedRest⟩
      refine ⟨node :: nodes, ⟨node, nodes, built, builtRest, rfl⟩, ?_⟩
      rw [List.map_cons, Document.ElementOf.extend, added]
      exact addedRest
    · rintro ⟨_, ⟨node, nodes, built, builtRest, rfl⟩, addedAll⟩
      rw [List.map_cons, Document.ElementOf.extend] at addedAll
      split at addedAll
      · next longer added => exact ⟨node, built, longer, added, nodes, builtRest, addedAll⟩
      · cases addedAll

end Build

/-! ## What a block yields -/

/-- A block that evaluates to something which is spliced into the given nodes. -/
def Expression.Yields (scope : Scope) (expression : Expression) (nodes : List Document.Node) :
    Prop :=
  ∃ found, expression.evaluate scope = .ok found ∧ splice found expression.span = ⟨nodes, none⟩

theorem Expression.Yields.unique {expression : Expression}
    {others : List Document.Node} (yields : expression.Yields scope nodes)
    (again : expression.Yields scope others) : nodes = others := by
  obtain ⟨found, evaluated, spliced⟩ := yields
  obtain ⟨other, evaluatedAgain, splicedAgain⟩ := again
  cases evaluated.symm.trans evaluatedAgain
  cases spliced.symm.trans splicedAgain
  rfl

/-- The items of an iteration are taken from its front. -/
theorem pull_items {reference : Nat} {items : List Value}
    (stands : memory.iterations[reference]? = some (.items items none)) :
    (Host.pull reference).run memory =
      match items with
      | [] => .ok (none, memory)
      | item :: rest => .ok (some item, { memory with
          iterations := memory.iterations.setIfInBounds reference (.items rest none) }) := by
  have positive : Host.steps = (Host.steps - 1) + 1 := rfl
  have found : (Host.Run.iteration reference).run memory = .ok (.items items none, memory) := by
    simp only [Host.Run.iteration, StateT.run_bind, StateT.run_get, pure_bind, stands]
    rfl
  rw [Host.pull, positive, Host.next, StateT.run_bind, found]
  cases items with
  | nil => rfl
  | cons item rest => rfl

theorem Pending.all_items {reference fuel : Nat}
    (stands : memory.iterations[reference]? = some (.items (nodes.map .node) none))
    (enough : nodes.length < fuel) :
    (Pending.items reference memory).all span fuel [] = ⟨nodes, none⟩ := by
  induction nodes generalizing memory fuel with
  | nil =>
    obtain ⟨fuel, rfl⟩ := Nat.exists_eq_succ_of_ne_zero (Nat.ne_of_gt enough)
    rw [all, next, pull_items stands]
    rfl
  | cons node rest ih =>
    obtain ⟨fuel, rfl⟩ := Nat.exists_eq_succ_of_ne_zero (Nat.ne_of_gt (Nat.zero_lt_of_lt enough))
    obtain ⟨inside, -⟩ := Array.getElem?_eq_some_iff.mp stands
    have standsFurther : (memory.iterations.setIfInBounds reference
        (.items (rest.map .node) none))[reference]? = some (.items (rest.map .node) none) := by
      simp [inside]
    rw [all, next, pull_items stands]
    change Pending.all span fuel [node] _ = _
    rw [all_taken, ih standsFurther (Nat.lt_of_succ_lt_succ enough)]
    rfl

theorem readName_top {value : Value} (found : memory.globals.get? name = some value) :
    (Host.readName .top name).run memory = .ok (value, memory) := by
  simp only [Host.readName, Host.Frame.top, List.findSome?_nil, StateT.run_bind, StateT.run_get,
    pure_bind, found]
  rfl

theorem Expression.evaluate_name {code : String} {delimiter : Delimiter} {value : Value}
    (read : Expression.term code span = .ok (.name name))
    (named : scope.get? name = some value) :
    (Expression.group delimiter code span).evaluate scope = .ok ⟨value, .start scope.entries⟩ := by
  have positive : Host.steps = (Host.steps - 1) + 1 := rfl
  have found : (Host.Memory.start scope.entries).globals.get? name = some value := named
  have run : (Host.evaluate (.name name)).run (.start scope.entries) =
      .ok (value, .start scope.entries) := by
    rw [Host.evaluate, positive, Host.eval]
    exact readName_top found
  rw [Expression.evaluate, Expression.evaluateCode, bind_eq_ok]
  refine ⟨.name name, read, ?_⟩
  rw [if_neg (by simp [Host.Term.repeats]), run]
  rfl

/-- A block with the name of a list of nodes yields the nodes. -/
theorem Expression.yields_of_name {code : String} {delimiter : Delimiter}
    (read : Expression.term code span = .ok (.name name))
    (named : scope.get? name = some (.list (nodes.map .node)))
    (short : nodes.length < Host.steps) :
    (Expression.group delimiter code span).Yields scope nodes :=
  ⟨_, evaluate_name read named, Pending.all_items rfl short⟩

end TypedMarkup
