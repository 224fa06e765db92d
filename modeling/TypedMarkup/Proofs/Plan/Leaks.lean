import TypedMarkup.Proofs.Markup.Pointing
import TypedMarkup.Proofs.Plan.Validity

/-!
Contract: which failures of building are errors of the unit.

Owns: `NodePlan.Leaks`, the ways in which a failure of a host computation gets out of building as it
is, and the theorem that all other failures are told as errors of the unit. Each of the places that
use host values has its own guard, and each leak is a failure that one of the guards lets through:
the guard of attributes takes failures of type and value only, the guard of evaluation cannot write
keys that are too long, and there is no guard around the texts of data attributes, where a number
that is too long or a foreign child is in the way.

Does not own: which host computations fail.
-/

namespace TypedMarkup

variable {failure : Failure} {code : Expression} {source : String}

def Failure.IsTold (failure : Failure) : Prop := ∃ error, failure = .compile error

/-! ## The places of a plan that use host values -/

namespace NodePlan

/-- A plan inside of another. -/
inductive Within : NodePlan → NodePlan → Prop where
  | self (plan : NodePlan) : Within plan plan
  | required {part child : NodePlan} {head : TagPlan} {required optional : List NodePlan}
      (member : child ∈ required) (inside : Within part child) :
      Within part (.element head required optional)
  | optional {part child : NodePlan} {head : TagPlan} {required optional : List NodePlan}
      (member : child ∈ optional) (inside : Within part child) :
      Within part (.element head required optional)

theorem Within.trans {part middle whole : NodePlan} (inner : part.Within middle)
    (outer : middle.Within whole) : part.Within whole := by
  induction outer with
  | self => exact inner
  | required member _ ih => exact .required member ih
  | optional member _ ih => exact .optional member ih

/-- A plan evaluates an expression itself. -/
def Uses : NodePlan → Expression → Prop
  | element head _ _, code =>
    (∃ setting ∈ head.attributes, setting.source = .expression code) ∨
      (∃ entry ∈ head.data, entry.source = .expression code) ∨
      ∃ handled ∈ head.events, handled.source = .expression code
  | block child, code => child.expression = code
  | text _ _, _ => False

/-- The failures that building a plan lets out as they are, and how they come about. -/
inductive Leaks (root : NodePlan) (scope : Scope) : Failure → Prop where
  | nullInCode {part : NodePlan} {code : Expression} (inside : part.Within root)
      (used : part.Uses code) (null : '\x00' ∈ code.code.toList) : Leaks root scope .nullInCode
  | longKey {part : NodePlan} {code : Expression} {term : Host.Term} (inside : part.Within root)
      (used : part.Uses code) (read : Expression.term code.code code.span = .ok term)
      (failed : (Host.evaluate term).run (.start scope.entries) = .error .missingLongKey) :
      Leaks root scope .integerLength
  | fitting {head : TagPlan} {required optional : List NodePlan} {setting : AttributePlan}
      {code : Expression} {found : Evaluated} {type : AttributeType} {failure : Failure}
      {kind : FailureKind} (inside : Within (.element head required optional) root)
      (member : setting ∈ head.attributes) (computed : setting.source = .expression code)
      (evaluated : code.evaluate scope = .ok found)
      (typed : head.schema.attributeType? setting.name = some type)
      (failed : (type.coerce found.value).run' found.memory = .error failure)
      (failureKind : failure.kind? = some kind) (notType : kind ≠ .type)
      (notValue : kind ≠ .value) : Leaks root scope failure
  | unwrittenData {head : TagPlan} {required optional : List NodePlan} {entry : DataPlan}
      {code : Expression} {found : Evaluated} {obstacle : Obstacle}
      (inside : Within (.element head required optional) root) (member : entry ∈ head.data)
      (computed : entry.source = .expression code) (evaluated : code.evaluate scope = .ok found)
      (obstructed : found.value.obstacle? = some obstacle) : Leaks root scope obstacle.failure
  | longItemKey {child : BlockPlan} {found : Evaluated} (inside : Within (.block child) root)
      (evaluated : child.expression.evaluate scope = .ok found)
      (failed : (splice found child.expression.span).finish = some .integerLength) :
      Leaks root scope .integerLength
  | endless {child : BlockPlan} {found : Evaluated} (inside : Within (.block child) root)
      (evaluated : child.expression.evaluate scope = .ok found)
      (many : Host.steps ≤ (splice found child.expression.span).nodes.length) :
      Leaks root scope .tooDeep

theorem Leaks.not_told {root : NodePlan} {scope : Scope}
    (leaks : root.Leaks scope failure) : ¬ failure.IsTold := by
  rintro ⟨error, same⟩
  cases leaks with
  | fitting _ _ _ _ _ _ failureKind =>
    rw [same] at failureKind
    cases failureKind
  | @unwrittenData _ _ _ _ _ _ obstacle =>
    cases obstacle <;> cases same
  | nullInCode | longKey | longItemKey | endless => cases same

end NodePlan

/-! ## Failures that are told -/

/-- A failure is an error of the unit and, where `proper` holds, none of reading a text. -/
def Failure.IsToldWhere (proper : Prop) (failure : Failure) : Prop :=
  ∃ error, failure = .compile error ∧ (proper → error.BehindReading)

section

variable {proper : Prop}

theorem Failure.IsToldWhere.isTold (told : failure.IsToldWhere proper) :
    failure.IsTold := by
  obtain ⟨error, same, -⟩ := told
  exact ⟨error, same⟩

theorem Failure.isToldWhere_compile {error : CompileError} (behind : error.BehindReading) :
    Failure.IsToldWhere proper (.compile error) :=
  ⟨error, rfl, fun _ => behind⟩

theorem Failure.isToldWhere_of_kind? (kindless : failure.kind? = none)
    (kind : proper → failure.kind?.isSome = true) : failure.IsToldWhere proper := by
  cases failure with
  | compile error => exact ⟨error, rfl, fun holds => by cases kind holds⟩
  | _ => simp [Failure.kind?] at kindless

theorem Failure.toldAt_cases (span : Span) (failure : Failure) :
    (failure.toldAt span).IsToldWhere proper ∨
      failure = .missingLongKey ∧ failure.toldAt span = .integerLength := by
  unfold toldAt
  split
  · exact .inr ⟨rfl, rfl⟩
  · exact .inl (isToldWhere_compile rfl)

theorem Failure.reportedAt_cases (span : Span) (failure : Failure) :
    (failure.reportedAt span).IsToldWhere proper ∨
      failure = .missingLongKey ∧ failure.reportedAt span = .integerLength := by
  unfold reportedAt
  split
  · exact .inl (isToldWhere_compile rfl)
  · exact .inl (isToldWhere_compile rfl)
  · exact .inl (isToldWhere_compile rfl)
  · exact toldAt_cases span _

theorem iterationFailure_cases (span : Span) (kind : proper → failure.kind?.isSome = true) :
    (iterationFailure span failure).IsToldWhere proper ∨
      iterationFailure span failure = .integerLength := by
  unfold iterationFailure
  split
  · exact .inl (Failure.isToldWhere_of_kind? rfl kind)
  · exact (Failure.toldAt_cases span _).imp id And.right

/-- A value that does not fit is told, and all that is kept is of another kind. -/
theorem attributeFailure_cases (name tag : String) (span : Span) (failure : Failure) :
    (Build.attributeFailure name tag span failure).IsToldWhere proper ∨
      Build.attributeFailure name tag span failure = failure ∧
        ∀ kind, failure.kind? = some kind → kind ≠ .type ∧ kind ≠ .value := by
  unfold Build.attributeFailure
  split
  · exact .inl (Failure.isToldWhere_compile rfl)
  · next notBlamed =>
    refine .inr ⟨rfl, fun kind found => ⟨?_, ?_⟩⟩ <;> rintro rfl <;>
      exact notBlamed (by simp [Failure.blamesValue, found])

theorem term_told (code : String) (span : Span) :
    FailsOnly (fun failure => failure.IsToldWhere proper ∨
      failure = .nullInCode ∧ '\x00' ∈ code.toList) (Expression.term code span) := by
  unfold Expression.term
  split
  · next null => exact FailsOnly.error_iff.mpr (.inr ⟨rfl, List.contains_iff_mem.mp null⟩)
  · split
    · exact .ok _
    · exact FailsOnly.error_iff.mpr (.inl (Failure.isToldWhere_compile rfl))

end

namespace Build

/-- A failure is told, or it is one that building lets out. -/
def Accounted (proper : Prop) (root : NodePlan) (scope : Scope) (failure : Failure) : Prop :=
  failure.IsToldWhere proper ∨ root.Leaks scope failure

/-- The same of a fault, where those of the plan do not count. -/
def Fault.Accounted (proper : Prop) (root : NodePlan) (scope : Scope) : Fault → Prop
  | failed failure => Build.Accounted proper root scope failure
  | structural _ => True

section

variable {proper : Prop} {root part : NodePlan} {scope : Scope}

theorem structurally_accounted {α : Type} (change : Except Refusal α) :
    FailsOnly (Fault.Accounted proper root scope) (structurally change) :=
  .mapError fun _ _ => trivial

/-! ## Evaluation -/

theorem evaluateCode_accounted (inside : part.Within root)
    (used : part.Uses code) : FailsOnly (Accounted proper root scope)
      (Expression.evaluateCode code.code code.span scope) := by
  refine .bind (fun failure unread => ?_) fun term read => ?_
  · rcases term_told _ _ failure unread with told | ⟨rfl, null⟩
    · exact .inl told
    · exact .inr (.nullInCode inside used null)
  · dsimp only
    split
    · exact .throw_bind (.inl (Failure.isToldWhere_compile rfl))
    · split
      · exact .pure _
      · next stopped ran =>
        refine FailsOnly.throw_iff.mpr ?_
        rcases stopped.reportedAt_cases code.span with told | ⟨rfl, same⟩
        · exact .inl told
        · rw [same]
          exact .inr (.longKey inside used read ran)

theorem evaluate_accounted (inside : part.Within root) (used : part.Uses code) :
    FailsOnly (Accounted proper root scope) (code.evaluate scope) := by
  have ofCode : FailsOnly (Accounted proper root scope)
      (Expression.evaluateCode code.code code.span scope) :=
    evaluateCode_accounted inside used
  cases code with
  | path first members span =>
    unfold Expression.evaluate
    dsimp only
    split
    · exact .ok _
    · exact FailsOnly.error_iff.mpr (.inl (Failure.isToldWhere_compile rfl))
  | call | group => exact ofCode

/-! ## Start tags

Values are fitted and items are taken where streams run. Where `proper` holds, no stream ends in an
error of reading. -/

variable {head : TagPlan} {required optional : List NodePlan} {element : Element}
  {output : Option OutputType} (safe : proper → @Scope.Safe .host scope)

include safe in
/-- A typed attribute: the guard takes failures of type and value only. -/
theorem setAttribute_accounted {setting : AttributePlan}
    (inside : NodePlan.Within (.element head required optional) root)
    (member : setting ∈ head.attributes) (sameSchema : element.schema = head.schema)
    (known : proper → ∀ entry ∈ head.schema.attributes, entry.2.Known) :
    FailsOnly (Fault.Accounted proper root scope) (setAttribute scope element setting) := by
  let _ : Endings := .host
  unfold setAttribute
  split
  · exact structurally_accounted _
  · next code computed =>
    refine .bind (.mapError (evaluate_accounted inside (.inl ⟨setting, member, computed⟩)))
      fun found evaluation => .bind (structurally_accounted _) fun type typing =>
        .bind (.mapError fun stopped failed => ?_) fun _ _ => structurally_accounted _
    have evaluated := mapError_eq_ok.mp evaluation
    have typed : head.schema.attributeType? setting.name = some type := by
      rw [← sameSchema]
      exact Document.attributeType_eq_ok.mp (mapError_eq_ok.mp typing)
    rcases attributeFailure_cases setting.name element.schema.name code.span stopped with
      told | ⟨kept, apart⟩
    · exact .inl told
    · change Accounted proper root scope (attributeFailure _ _ _ _)
      rw [kept]
      cases found : stopped.kind? with
      | some kind =>
        exact .inr (.fitting inside member computed evaluated typed failed found
          (apart kind found).1 (apart kind found).2)
      | none =>
        refine .inl (Failure.isToldWhere_of_kind? found fun holds => ?_)
        obtain ⟨valueSafe, memorySafe⟩ := evaluate_safe (safe holds) evaluated
        have fitted := coerce_keeps (known holds _ (Table.mem_of_get? typed)) valueSafe
        exact fitted.failing _ memorySafe stopped (map_eq_error.mp failed)

/-- A data attribute: there is no guard around its text. -/
theorem setData_accounted {entry : DataPlan}
    (inside : NodePlan.Within (.element head required optional) root)
    (member : entry ∈ head.data) :
    FailsOnly (Accounted proper root scope) (setData scope element entry) := by
  unfold setData
  split
  · exact .ok _
  · next code computed =>
    refine .bind (evaluate_accounted inside (.inr (.inl ⟨entry, member, computed⟩)))
      fun found evaluated => .bind ?_ fun _ _ => .pure _
    unfold Value.shown unlessObstructed
    split
    · next obstructed =>
      exact FailsOnly.error_iff.mpr
        (.inr (.unwrittenData inside member computed evaluated obstructed))
    · exact .ok _

/-- An event handler: a value of the wrong kind is told. -/
theorem setHandler_accounted {handled : EventPlan}
    (inside : NodePlan.Within (.element head required optional) root)
    (member : handled ∈ head.events) :
    FailsOnly (Fault.Accounted proper root scope) (setHandler output scope element handled) := by
  have valued : FailsOnly (Accounted proper root scope) (handlerValue scope handled.source) := by
    unfold handlerValue
    split
    · exact .ok _
    · next code computed =>
      exact (evaluate_accounted inside (.inr (.inr ⟨handled, member, computed⟩))).map
  refine .bind (.mapError valued) fun value _ => ?_
  split
  · exact FailsOnly.throw_iff.mpr trivial
  · refine .bind (.mapError fun refusal _ => ?_) fun _ _ => .pure _
    unfold handlerFault
    split
    · trivial
    · exact .inl (Failure.isToldWhere_compile rfl)

/-- What is set before keeps the schema of an element, by which its attributes are fitted. -/
theorem foldlM_setAttribute_schema {settings : List AttributePlan} {changed : Element}
    (run : settings.foldlM (setAttribute scope) element = .ok changed) :
    changed.schema = element.schema := by
  refine foldlM_keeps (fun reached => reached.schema = element.schema) ?_ run rfl
  intro setting _ before after step same
  obtain ⟨_, assigned⟩ := setAttribute_eq_ok step
  obtain ⟨-, rfl⟩ := Document.setAttribute_eq_ok.mp assigned
  exact same

include safe in
theorem startElement_accounted (inside : NodePlan.Within (.element head required optional) root)
    (known : proper → ∀ entry ∈ head.schema.attributes, entry.2.Known) :
    FailsOnly (Fault.Accounted proper root scope) (startElement output scope head) := by
  refine .bind (fun fault failed => ?_) fun attributed _ =>
    .bind (.mapError (.foldlM fun _ entry member => setData_accounted inside member))
      fun annotated _ => .foldlM fun _ handled member => setHandler_accounted inside member
  obtain ⟨before, setting, after, reached, split, ran, stopped⟩ := foldlM_eq_error failed
  have member : setting ∈ head.attributes := by simp [split]
  exact setAttribute_accounted safe inside member (foldlM_setAttribute_schema ran) known fault
    stopped

/-! ## Children -/

section

variable {span : Span} {pending : Pending}

theorem next_told (sound : proper → @Pending.Safe .host pending) :
    FailsOnly (fun failure => failure.IsToldWhere proper ∨ failure = .integerLength)
      (pending.next span) := by
  let _ : Endings := .host
  unfold Pending.next
  split
  · exact .ok _
  · exact .ok _
  · next reference memory =>
    split
    · next failure ran =>
      refine FailsOnly.error_iff.mpr (iterationFailure_cases span fun holds => ?_)
      exact (Host.pull_keeps reference).failing memory (sound holds) failure ran
    · exact .ok _
    · split
      · exact .ok _
      · exact FailsOnly.error_iff.mpr (.inl (Failure.isToldWhere_compile rfl))

theorem ofValue_told (found : Evaluated) (span : Span) :
    FailsOnly (fun failure => failure.IsToldWhere proper ∨ failure = .integerLength)
      (Pending.ofValue found span) := by
  unfold Pending.ofValue
  split
  · exact .ok _
  · split
    · split
      · exact .ok _
      · exact FailsOnly.error_iff.mpr ((Failure.toldAt_cases span _).imp id And.right)
    · exact FailsOnly.error_iff.mpr (.inl (Failure.isToldWhere_compile rfl))

/-- Nodes are taken one by one until the next cannot be had, or until there have been too many. -/
theorem appendPending_told {fuel : Nat} (taken : List Document.Node)
    (sound : proper → @Pending.Safe .host pending) :
    FailsOnly (fun failure => failure.IsToldWhere proper ∨
      (failure = .integerLength ∧ (pending.all span fuel taken).finish = some .integerLength) ∨
      (failure = .tooDeep ∧ (pending.all span fuel taken).nodes.length = taken.length + fuel))
      (appendPending span fuel element pending) := by
  let _ : Endings := .host
  induction fuel generalizing element pending taken with
  | zero =>
    refine FailsOnly.error_iff.mpr (.inr (.inr ⟨rfl, ?_⟩))
    rw [Pending.all, List.length_reverse, Nat.add_zero]
  | succ fuel ih =>
    rw [appendPending, Pending.all]
    cases came : pending.next span with
    | error failure =>
      refine FailsOnly.error_iff.mpr ((next_told sound failure came).imp id ?_)
      rintro rfl
      exact .inl ⟨rfl, rfl⟩
    | ok found =>
      cases found with
      | none => exact .ok _
      | some entry =>
        have restSound := fun holds => (next_valid (sound holds) came).2
        dsimp only
        split
        · next extended _ =>
          have further := @ih extended _ (entry.1 :: taken) restSound
          rwa [List.length_cons, Nat.add_assoc, Nat.add_comm 1] at further
        · exact FailsOnly.error_iff.mpr (.inl (Failure.isToldWhere_compile rfl))

/-- The nodes of a block at the root end with a failure that can be told, or with a key that is too
long. -/
theorem all_finish_told {fuel : Nat} {taken : List Document.Node}
    (sound : proper → @Pending.Safe .host pending)
    (finished : (pending.all span fuel taken).finish = some failure) :
    failure.IsToldWhere proper ∨ failure = .integerLength := by
  let _ : Endings := .host
  induction fuel generalizing pending taken with
  | zero =>
    cases finished
    exact iterationFailure_cases span fun _ => rfl
  | succ fuel ih =>
    rw [Pending.all] at finished
    split at finished
    · next stopped =>
      cases finished
      exact next_told sound failure stopped
    · cases finished
    · next came => exact ih (fun holds => (next_valid (sound holds) came).2) finished

end

include safe in
theorem pending_safe {span : Span} {found : Evaluated} {pending : Pending}
    (evaluated : code.evaluate scope = .ok found)
    (started : Pending.ofValue found span = .ok pending) :
    proper → @Pending.Safe .host pending := by
  let _ : Endings := .host
  intro holds
  obtain ⟨valueSafe, memorySafe⟩ := evaluate_safe (safe holds) evaluated
  exact ofValue_safe valueSafe memorySafe started

include safe in
theorem appendBlock_accounted {child : BlockPlan} (inside : NodePlan.Within (.block child) root) :
    FailsOnly (Accounted proper root scope) (appendBlock scope element child) := by
  refine .bind (evaluate_accounted inside rfl) fun found evaluated => .bind ?_ ?_
  · intro failure unstarted
    refine (ofValue_told found _ failure unstarted).imp id ?_
    rintro rfl
    exact .longItemKey inside evaluated (by rw [splice, unstarted])
  · intro pending started failure stopped
    have spliced : splice found child.expression.span =
        pending.all child.expression.span Host.steps [] := by
      rw [splice, started]
    rcases appendPending_told [] (pending_safe safe evaluated started) failure stopped with
      told | ⟨rfl, finish⟩ | ⟨rfl, many⟩
    · exact .inl told
    · exact .inr (.longItemKey inside evaluated (by rw [spliced, finish]))
    · exact .inr (.endless inside evaluated (by rw [spliced, many]; simp))

include safe in
theorem rootBlock_accounted {child : BlockPlan} (inside : NodePlan.Within (.block child) root) :
    FailsOnly (Fault.Accounted proper root scope) (buildNode output scope (.block child)) := by
  rw [buildNode]
  refine .bind (.mapError (evaluate_accounted inside rfl)) fun found evaluation => .mapError ?_
  have evaluated := mapError_eq_ok.mp evaluation
  have ends {failure : Failure}
      (finished : (splice found child.expression.span).finish = some failure) :
      failure.IsToldWhere proper ∨ failure = .integerLength := by
    unfold splice at finished
    split at finished
    · next started => exact all_finish_told (pending_safe safe evaluated started) finished
    · next unstarted =>
      cases finished
      exact ofValue_told found _ failure unstarted
  unfold rootNode
  split
  · next failure finished =>
    refine FailsOnly.error_iff.mpr ((ends finished).imp id ?_)
    rintro rfl
    exact .longItemKey inside evaluated finished
  · split
    · exact .ok _
    · exact FailsOnly.error_iff.mpr (.inl (Failure.isToldWhere_compile rfl))

include safe in
theorem appendOptional_accounted {plans : List NodePlan} (inside : ∀ plan ∈ plans, plan.Within root)
    (each : ∀ plan ∈ plans,
      FailsOnly (Fault.Accounted proper root scope) (buildNode output scope plan)) :
    FailsOnly (Fault.Accounted proper root scope) (appendOptional output scope element plans) := by
  rw [appendOptional_eq_foldlM]
  refine .foldlM fun before plan member => ?_
  rcases plan.block_or_written with ⟨block, rfl⟩ | written
  · exact .mapError (appendBlock_accounted safe (inside _ member))
  · rw [appendChild_written written]
    exact .bind (each plan member) fun _ _ => structurally_accounted _

include safe in
/-- Every failure of building a plan is told or one that is let out. -/
theorem buildNode_accounted {registry : Registry} {plan : NodePlan}
    (known : proper → ∀ schema ∈ registry.schemas, ∀ entry ∈ schema.attributes, entry.2.Known)
    (fits : plan.Fits registry output) (inside : plan.Within root) :
    FailsOnly (Fault.Accounted proper root scope) (buildNode output scope plan) := by
  induction fits with
  | text value span => rw [buildNode]; exact .ok _
  | block child => exact rootBlock_accounted safe inside
  | @element head required optional start _ _ _ _ requiredHypothesis optionalHypothesis =>
    have requiredInside : ∀ child ∈ required, child.Within root := fun child member =>
      .trans (.required member (.self child)) inside
    have optionalInside : ∀ child ∈ optional, child.Within root := fun child member =>
      .trans (.optional member (.self child)) inside
    rw [buildNode, buildRequired_eq_mapM]
    refine .bind (startElement_accounted safe inside fun holds => known holds _ start.known)
      fun started _ => .bind (.mapM fun child member => requiredHypothesis child member
        (requiredInside child member)) fun children _ => .bind ?_ fun bound _ =>
          .bind (appendOptional_accounted safe optionalInside fun child member =>
            optionalHypothesis child member (optionalInside child member)) fun _ _ => .pure _
    unfold setRequired
    split
    · exact .ok _
    · exact structurally_accounted _

end

theorem withSource_isToldWhere {proper : Prop}
    (told : failure.IsToldWhere proper) : (withSource source failure).IsToldWhere proper := by
  obtain ⟨error, rfl, behind⟩ := told
  unfold withSource
  split
  · next same =>
    cases same
    split
    · refine ⟨_, rfl, fun holds => ?_⟩
      unfold CompileError.withSource
      split <;> exact behind holds
    · exact ⟨error, rfl, behind⟩
  · next other => exact absurd rfl (other error)

theorem withSource_of_not_told
    (untold : ¬ failure.IsTold) : withSource source failure = failure := by
  unfold withSource
  split
  · exact absurd ⟨_, rfl⟩ untold
  · rfl

end Build

/-! ## Compiled plans -/

/-- Building a compiled plan fails with an error of the unit, or with what a guard lets through. -/
theorem build_accounted {proper : Prop} {registry : Registry}
    {requested : Option String} {plan : Plan} {scope : Scope}
    (compiled : compile source registry requested = .ok plan)
    (safe : proper → @Scope.Safe .host scope)
    (known : proper → ∀ schema ∈ registry.schemas, ∀ entry ∈ schema.attributes, entry.2.Known) :
    FailsOnly (Build.Accounted proper plan.root scope) (plan.build scope) := by
  have fits := compile_fits compiled
  refine .mapError fun fault stopped => ?_
  have accounted := Build.buildNode_accounted safe known fits (.self plan.root) fault stopped
  cases fault with
  | structural fault =>
    exact absurd stopped ((Build.buildNode_blameless fits).not_structural fault)
  | failed first =>
    rcases accounted with told | leaks
    · exact .inl (Build.withSource_isToldWhere told)
    · refine .inr ?_
      rw [Build.Fault.failure, Build.withSource_of_not_told leaks.not_told]
      exact leaks

/-- A failure of building a compiled plan is an error of the unit, unless it is one that a guard
lets through: then it gets out as it is, and the plan and the scope show why. -/
theorem failed_build_is_told_unless_it_leaks {source : String} {registry : Registry}
    {requested : Option String} {plan : Plan}
    (compiled : compile source registry requested = .ok plan) {scope : Scope} {failure : Failure}
    (failed : plan.build scope = .error failure) :
    failure.IsTold ↔ ¬ plan.root.Leaks scope failure := by
  rcases build_accounted compiled False.elim False.elim failure failed with
    told | leaks
  · exact iff_of_true told.isTold fun leaks => leaks.not_told told.isTold
  · exact iff_of_false leaks.not_told (not_not_intro leaks)

/-- A block whose items are computed while they are added: the second cannot be. -/
def lateFailure : String := "<body>\x7b(\"a\" * (1 // n) for n in [1, 0])\x7d</body>"

theorem lateFailure_is_told :
    ∃ registry plan failure,
      Registry.ofDeclarations (Html.structureElements ++ Html.metadataElements) = .ok registry ∧
        compile lateFailure registry none = .ok plan ∧
        plan.build (.ofTable []) = .error failure ∧ ¬ plan.root.Leaks (.ofTable []) failure := by
  have stops : yields (fun registry => yields (fun plan =>
      fails (fun failure => failure.kind?.isNone) (plan.build (.ofTable [])))
      (compile lateFailure registry none))
      (Registry.ofDeclarations (Html.structureElements ++ Html.metadataElements)) = true := by
    decide +kernel
  obtain ⟨registry, declared, compiles⟩ := exists_of_yields stops
  obtain ⟨plan, compiled, fails⟩ := exists_of_yields compiles
  obtain ⟨failure, failed, kindless⟩ := exists_of_fails fails
  have noKind := Option.isNone_iff_eq_none.mp kindless
  have told := (Failure.isToldWhere_of_kind? noKind False.elim).isTold
  exact ⟨registry, plan, failure, declared, compiled, failed,
    (failed_build_is_told_unless_it_leaks compiled failed).mp told⟩

/-- An integer that is too large for a number attribute is not told: the failure to convert it gets
out as it is. -/
theorem hugeNumber_is_not_told :
    ∃ registry plan,
      Registry.ofDeclarations Html.formElements = .ok registry ∧
        compile "<meter value=v/>" registry none = .ok plan ∧
        plan.build (.ofTable [("v", .int (Nat.pow 10 309))]) = .error .tooLarge ∧
        ¬ Failure.IsTold .tooLarge := by
  have stops : yields (fun registry => yields (fun plan =>
      fails (fun failure => match failure with | .tooLarge => true | _ => false)
        (plan.build (.ofTable [("v", .int (Nat.pow 10 309))])))
      (compile "<meter value=v/>" registry none))
      (Registry.ofDeclarations Html.formElements) = true := by
    decide +kernel
  obtain ⟨registry, declared, compiles⟩ := exists_of_yields stops
  obtain ⟨plan, compiled, fails⟩ := exists_of_yields compiles
  obtain ⟨failure, failed, same⟩ := exists_of_fails fails
  refine ⟨registry, plan, declared, compiled, ?_, ?_⟩
  · split at same
    · exact failed
    · cases same
  · rintro ⟨error, same⟩
    cases same

end TypedMarkup
