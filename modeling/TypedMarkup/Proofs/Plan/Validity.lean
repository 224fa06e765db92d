import TypedMarkup.Proofs.Plan.Blameless
import TypedMarkup.Proofs.Schema.Fitting

/-!
Contract: what is built is valid.

Owns: the soundness of scopes and of the nodes that blocks hand out, and the theorem that every
document built from a compiled plan in a sound scope keeps to its schemas at every depth.
-/

namespace TypedMarkup

open Host Host.Run

variable {span : Span} {value found : Value} {node : Document.Node} {pending : Pending}

/-! ## Scopes and expressions -/

/-- Everything that can be got from the values of a scope is well made. -/
def Scope.Sound (scope : Scope) : Prop :=
  ∀ entry ∈ scope.entries, entry.2.Sound

section

variable [Endings]

/-- Everything that can be got from the values of a scope is proper. -/
def Scope.Safe (scope : Scope) : Prop :=
  ∀ entry ∈ scope.entries, entry.2.Safe


theorem defaults_safe : ∀ entry ∈ Scope.defaults, entry.2.Safe := by
  intro entry member
  rcases List.mem_append.mp member with inVocabularies | inMakers
  · obtain ⟨words, known, rfl⟩ := List.mem_map.mp inVocabularies
    exact .of_none known rfl
  · simp only [List.mem_cons, List.not_mem_nil, or_false] at inMakers
    rcases inMakers with rfl | rfl | rfl | rfl | rfl | rfl
    all_goals exact .of_none trivial rfl

theorem putAll_safe {names : List (String × Value)} {table : Table Value}
    (tableSafe : ∀ entry ∈ table, entry.2.Safe) (namesSafe : ∀ entry ∈ names, entry.2.Safe) :
    ∀ entry ∈ table.putAll names, entry.2.Safe := by
  induction names generalizing table with
  | nil => exact tableSafe
  | cons first rest ih =>
    obtain ⟨firstSafe, restSafe⟩ := List.forall_mem_cons.mp namesSafe
    exact ih (Table.forall_mem_put firstSafe tableSafe) restSafe

/-- What is in every scope is safe, so a scope is safe if the names given to it are. -/
theorem safe_ofTable {names : Table Value} (safe : ∀ entry ∈ names, entry.2.Safe) :
    (Scope.ofTable names).Safe :=
  putAll_safe defaults_safe safe

theorem member?_safe {segment : String} (safe : value.Safe)
    (there : Scope.member? value segment = some found) : found.Safe := by
  unfold Scope.member? at there
  split at there
  · split at there
    · next among =>
      cases there
      exact entry?_safe (safe_dict.mp safe) among
    · exact attribute?_safe safe there
  · exact attribute?_safe safe there

theorem follow_safe {segments : List String} {walked : String}
    (safe : value.Safe) (followed : Scope.follow value walked segments = .ok found) :
    found.Safe := by
  induction segments generalizing value walked with
  | nil =>
    cases followed
    exact safe
  | cons segment rest ih =>
    rw [Scope.follow] at followed
    split at followed
    · next there => exact ih (member?_safe safe there) followed
    · cases followed

theorem resolve_safe {scope : Scope} (safe : scope.Safe) {head : String} {members : List String}
    (resolved : scope.resolve head members = .ok found) : found.Safe := by
  unfold Scope.resolve at resolved
  split at resolved
  · next there => exact follow_safe (safe _ (Table.mem_of_get? there)) resolved
  · cases resolved

theorem evaluateCode_safe {scope : Scope} (safe : scope.Safe) {code : String}
    {found : Evaluated} (evaluated : Expression.evaluateCode code span scope = .ok found) :
    found.value.Safe ∧ found.memory.Safe := by
  obtain ⟨term, _, behindTerm⟩ := bind_eq_ok.mp evaluated
  dsimp only at behindTerm
  split at behindTerm
  · cases behindTerm
  · split at behindTerm
    · next value memory ran =>
      cases behindTerm
      exact ((evaluationKeeps steps).eval .top term).returning _ (Memory.safe_start safe) value
        memory ran
    · cases behindTerm

theorem evaluate_safe {scope : Scope} (safe : scope.Safe) {expression : Expression}
    {found : Evaluated} (evaluated : expression.evaluate scope = .ok found) :
    found.value.Safe ∧ found.memory.Safe := by
  unfold Expression.evaluate at evaluated
  split at evaluated
  · split at evaluated
    · next resolved =>
      cases evaluated
      exact ⟨resolve_safe safe resolved, Memory.safe_start safe⟩
    · cases evaluated
  · exact evaluateCode_safe safe evaluated
  · exact evaluateCode_safe safe evaluated

/-! ## Blocks -/

theorem nodeOf?_valid (safe : value.Safe) (found : nodeOf? value = some node) : node.Valid := by
  unfold nodeOf? at found
  split at found
  · cases found
    exact safe.wellMade
  · obtain ⟨content, -, rfl⟩ := Option.map_eq_some_iff.mp found
    exact .text content

/-- All nodes that are still to come are valid. -/
def Pending.Safe : Pending → Prop
  | done => True
  | single node => node.Valid
  | items _ memory => memory.Safe

theorem ofValue_safe {evaluated : Evaluated}
    (valueSafe : evaluated.value.Safe) (memorySafe : evaluated.memory.Safe)
    (started : Pending.ofValue evaluated span = .ok pending) : pending.Safe := by
  unfold Pending.ofValue at started
  split at started
  · next node found =>
    cases started
    exact nodeOf?_valid valueSafe found
  · split at started
    · split at started
      · next reference memory ran =>
        cases started
        exact ((iterate_keeps valueSafe).returning _ memorySafe reference memory ran).2
      · cases started
    · cases started

theorem next_valid {rest : Pending}
    (safe : pending.Safe) (taken : pending.next span = .ok (some (node, rest))) :
    node.Valid ∧ rest.Safe := by
  unfold Pending.next at taken
  split at taken
  · cases taken
  · cases taken
    exact ⟨safe, trivial⟩
  · next reference memory =>
    split at taken
    · cases taken
    · cases taken
    · next item left ran =>
      obtain ⟨itemSafe, leftSafe⟩ :=
        (pull_keeps reference).returning memory safe _ left ran
      split at taken
      · next found =>
        cases taken
        exact ⟨nodeOf?_valid (itemSafe item rfl) found, leftSafe⟩
      · cases taken

theorem all_valid {fuel : Nat} {taken : List Document.Node}
    (takenValid : ∀ node ∈ taken, node.Valid) (safe : pending.Safe) :
    ∀ node ∈ (pending.all span fuel taken).nodes, node.Valid := by
  induction fuel generalizing taken pending with
  | zero => exact fun node member => takenValid node (List.mem_reverse.mp member)
  | succ fuel ih =>
    rw [Pending.all]
    split
    · exact fun node member => takenValid node (List.mem_reverse.mp member)
    · exact fun node member => takenValid node (List.mem_reverse.mp member)
    · next next rest stepped =>
      obtain ⟨nextValid, restSafe⟩ := next_valid safe stepped
      exact ih (List.forall_mem_cons.mpr ⟨nextValid, takenValid⟩) restSafe

theorem splice_valid {evaluated : Evaluated} (valueSafe : evaluated.value.Safe)
    (memorySafe : evaluated.memory.Safe) :
    ∀ node ∈ (splice evaluated span).nodes, node.Valid := by
  unfold splice
  split
  · next started =>
    exact all_valid (List.forall_mem_nil _) (ofValue_safe valueSafe memorySafe started)
  · exact List.forall_mem_nil _

end

/-- A sound scope is safe, whatever its streams end in. -/
theorem Scope.safe_of_sound {scope : Scope} (sound : scope.Sound) : @Scope.Safe .any scope :=
  fun entry member => Value.sound_iff_safe.mp (sound entry member)

/-- What is in every scope is sound, so a scope is sound if the names given to it are. -/
theorem sound_ofTable {names : Table Value} (sound : ∀ entry ∈ names, entry.2.Sound) :
    (Scope.ofTable names).Sound := by
  let _ : Endings := .any
  have safe : (Scope.ofTable names).Safe :=
    safe_ofTable fun entry member => Value.sound_iff_safe.mp (sound entry member)
  exact fun entry member => Value.sound_iff_safe.mpr (safe entry member)

namespace Build

theorem rootNode_valid {spliced : Spliced}
    (valid : ∀ part ∈ spliced.nodes, part.Valid) (found : rootNode span spliced = .ok node) :
    node.Valid := by
  unfold rootNode at found
  split at found
  · cases found
  · split at found
    · next only =>
      cases found
      exact valid node (only ▸ List.mem_singleton_self node)
    · cases found

/-! ## Elements in the making -/

/-- An element without children that keeps to its schema so far. -/
structure Begun (schema : Schema) (element : Element) : Prop where
  sameSchema : element.schema = schema
  attributes : ∀ slot ∈ element.slots, slot.2 = .none ∨
    ∃ type, schema.attributes.get? slot.1 = some type ∧ type.Admits slot.2
  handlers : ∀ entry ∈ element.handlers, entry.2.Suits
  noRequired : element.required = []
  noOptional : element.optional = []

/-- An element keeps to its schema, and its children are valid. -/
structure Grown (element : Element) : Prop where
  keepsSchema : element.KeepsSchema
  required : ∀ child ∈ element.required, child.Valid
  optional : ∀ child ∈ element.optional, child.Valid

section

variable {schema : Schema} {element changed : Element} {scope : Scope}
  {output : Option OutputType}

theorem begun_ofSchema (schema : Schema) (output : Option OutputType) :
    Begun schema (.ofSchema schema output) := by
  refine ⟨rfl, ?_, List.forall_mem_nil _, rfl, rfl⟩
  intro slot member
  obtain ⟨entry, -, rfl⟩ := List.mem_map.mp member
  exact .inl rfl

theorem begun_setAttribute {name : String} {type : AttributeType}
    (begun : Begun schema element) (typed : schema.attributeType? name = some type)
    (admitted : type.Admits value) (set : element.setAttribute name value = .ok changed) :
    Begun schema changed := by
  obtain ⟨-, rfl⟩ := Document.setAttribute_eq_ok.mp set
  refine ⟨begun.sameSchema, ?_, begun.handlers, begun.noRequired, begun.noOptional⟩
  exact Table.forall_mem_put (.inr ⟨type, typed, admitted⟩) begun.attributes

theorem run'_eq_ok {α : Type} {computation : Run α} {memory : Memory} {value : α}
    (ran : computation.run' memory = .ok value) :
    ∃ after, computation.run memory = .ok (value, after) := by
  obtain ⟨⟨result, after⟩, ranWhole, same⟩ := map_eq_ok.mp ran
  cases same
  exact ⟨after, ranWhole⟩

theorem setAttribute_begun [Endings] {plan : AttributePlan} (scopeSafe : scope.Safe)
    (known : ∀ entry ∈ schema.attributes, entry.2.Known) (fits : plan.Fits schema)
    (begun : Begun schema element) (set : setAttribute scope element plan = .ok changed) :
    Begun schema changed := by
  obtain ⟨type, typed, read⟩ := fits
  unfold setAttribute at set
  split at set
  · next written value literal =>
    exact begun_setAttribute begun typed (parse_admits (read written value literal))
      (mapError_eq_ok.mp set)
  · obtain ⟨found, evaluated, behindValue⟩ := bind_eq_ok.mp set
    obtain ⟨own, ownFound, behindType⟩ := bind_eq_ok.mp behindValue
    obtain ⟨fitted, coerced, assigned⟩ := bind_eq_ok.mp behindType
    obtain ⟨valueSafe, memorySafe⟩ := evaluate_safe scopeSafe (mapError_eq_ok.mp evaluated)
    have sameType : own = type := by
      have ownType := mapError_eq_ok.mp ownFound
      rw [Document.ElementOf.attributeType, begun.sameSchema, typed] at ownType
      exact (Except.ok.inj ownType).symm
    subst sameType
    have typeKnown := known _ (Table.mem_of_get? typed)
    obtain ⟨after, ran⟩ := run'_eq_ok (mapError_eq_ok.mp coerced)
    have admitted := ((coerce_keeps typeKnown valueSafe).returning _ memorySafe fitted after ran).1
    exact begun_setAttribute begun typed admitted (mapError_eq_ok.mp assigned)

theorem setData_begun {plan : DataPlan} (begun : Begun schema element)
    (set : setData scope element plan = .ok changed) : Begun schema changed := by
  obtain ⟨value, rfl⟩ := setData_eq_ok set
  exact ⟨begun.sameSchema, begun.attributes, begun.handlers, begun.noRequired, begun.noOptional⟩

theorem bindHandler_suits {target : OutputType} {event : String} {handler : Document.Handler Value}
    (bound : Document.bindHandler target event value = .ok handler) : handler.Suits := by
  obtain ⟨_, checked, rfl⟩ := map_eq_ok.mp bound
  unfold Document.checkHandler at checked
  cases target with
  | string =>
    dsimp only at checked
    split at checked
    · next hasContent => exact hasContent
    · cases checked
  | dom =>
    dsimp only at checked
    split at checked
    · next callable => exact callable
    · cases checked

theorem setHandler_begun {plan : EventPlan} (begun : Begun schema element)
    (set : setHandler output scope element plan = .ok changed) : Begun schema changed := by
  obtain ⟨_, _, _, bound, rfl⟩ := setHandler_eq_ok set
  refine ⟨begun.sameSchema, begun.attributes, ?_, begun.noRequired, begun.noOptional⟩
  exact Table.forall_mem_put (bindHandler_suits bound) begun.handlers

theorem startElement_begun [Endings] {registry : Registry} {plan : TagPlan} (scopeSafe : scope.Safe)
    (known : ∀ entry ∈ plan.schema.attributes, entry.2.Known) (fits : plan.Fits registry output)
    (started : startElement output scope plan = .ok element) : Begun plan.schema element := by
  obtain ⟨attributed, attributesSet, behindAttributes⟩ := bind_eq_ok.mp started
  obtain ⟨annotated, dataSet, eventsSet⟩ := bind_eq_ok.mp behindAttributes
  have begunAttributed : Begun plan.schema attributed := by
    refine foldlM_keeps (Begun plan.schema) ?_ attributesSet (begun_ofSchema plan.schema output)
    intro setting member before after set begun
    exact setAttribute_begun scopeSafe known (fits.attributes setting member) begun set
  have begunAnnotated : Begun plan.schema annotated := by
    refine foldlM_keeps (Begun plan.schema) ?_ (mapError_eq_ok.mp dataSet) begunAttributed
    intro entry _ before after set begun
    exact setData_begun begun set
  refine foldlM_keeps (Begun plan.schema) ?_ eventsSet begunAnnotated
  intro handled _ before after set begun
  exact setHandler_begun begun set

theorem setRequired_grown {children : List Document.Node} (begun : Begun schema element)
    (named : children.map Document.Node.schemaName? = schema.required.map some)
    (valid : ∀ child ∈ children, child.Valid)
    (set : setRequired element children = .ok changed) : Grown changed := by
  have grown : ∀ other : Element, other.schema = element.schema → other.slots = element.slots →
      other.handlers = element.handlers → other.required = children →
      other.optional = element.optional → Grown other := by
    intro other sameSchema sameSlots sameHandlers sameRequired sameOptional
    have noOptional : other.optional = [] := sameOptional.trans begun.noOptional
    refine ⟨⟨?_, ?_, ?_, ?_⟩, ?_, ?_⟩
    · rw [sameRequired, sameSchema, begun.sameSchema, named]
    · rw [noOptional]
      exact List.forall_mem_nil _
    · rw [sameSlots, sameSchema, begun.sameSchema]
      exact begun.attributes
    · rw [sameHandlers]
      exact begun.handlers
    · rw [sameRequired]
      exact valid
    · rw [noOptional]
      exact List.forall_mem_nil _
  unfold setRequired at set
  split at set
  · next empty =>
    cases set
    have noChildren : children = [] := List.isEmpty_iff.mp empty
    exact grown element rfl rfl rfl (begun.noRequired.trans noChildren.symm) rfl
  · obtain ⟨-, rfl⟩ := Document.setRequired_eq_ok.mp (mapError_eq_ok.mp set)
    exact grown _ rfl rfl rfl (Document.map_bound_node children) rfl

theorem append_grown (grown : Grown element) (valid : node.Valid)
    (appended : element.append (.node node) = .ok changed) : Grown changed := by
  obtain ⟨constraint, present, accepted, rfl⟩ := Document.append_eq_ok.mp appended
  have keeps := grown.keepsSchema
  refine ⟨⟨keeps.required, ?_, keeps.attributes, keeps.handlers⟩, grown.required, ?_⟩
  · exact List.forall_mem_append.mpr
      ⟨keeps.optional, List.forall_mem_singleton.mpr ⟨constraint, present, accepted⟩⟩
  · exact List.forall_mem_append.mpr ⟨grown.optional, List.forall_mem_singleton.mpr valid⟩

theorem appendBlock_grown [Endings] {block : BlockPlan} (scopeSafe : scope.Safe)
    (grown : Grown element) (appended : appendBlock scope element block = .ok changed) :
    Grown changed := by
  obtain ⟨found, evaluated, behindValue⟩ := bind_eq_ok.mp appended
  obtain ⟨pending, started, run⟩ := bind_eq_ok.mp behindValue
  obtain ⟨valueSafe, memorySafe⟩ := evaluate_safe scopeSafe evaluated
  refine appendPending_keeps Grown Pending.Safe ?_
    (ofValue_safe valueSafe memorySafe started) run grown
  intro before node rest safe taken
  obtain ⟨nodeValid, restSafe⟩ := next_valid safe taken
  exact ⟨restSafe, fun _ _ added grownBefore => append_grown grownBefore nodeValid added⟩

/-- Adding the optional children, where each of them is built to a valid node. -/
theorem appendOptional_grown [Endings] {plans : List NodePlan} (scopeSafe : scope.Safe)
    (each : ∀ plan ∈ plans, ∀ node, buildNode output scope plan = .ok node → node.Valid)
    (grown : Grown element) (appended : appendOptional output scope element plans = .ok changed) :
    Grown changed := by
  rw [appendOptional_eq_foldlM] at appended
  refine foldlM_keeps Grown (fun plan member before after added grown => ?_) appended grown
  rcases plan.block_or_written with ⟨block, rfl⟩ | written
  · exact appendBlock_grown scopeSafe grown (mapError_eq_ok.mp added)
  · rw [appendChild_written written] at added
    obtain ⟨node, built, taken⟩ := bind_eq_ok.mp added
    exact append_grown grown (each plan member node built) (mapError_eq_ok.mp taken)

end

/-! ## Documents -/

theorem buildNode_valid {registry : Registry} {output : Option OutputType} {scope : Scope}
    {plan : NodePlan}
    (known : ∀ schema ∈ registry.schemas, ∀ entry ∈ schema.attributes, entry.2.Known)
    (scopeSound : scope.Sound) (fits : plan.Fits registry output) :
    ∀ node, buildNode output scope plan = .ok node → node.Valid := by
  let _ : Endings := .any
  have scopeSafe : scope.Safe := Scope.safe_of_sound scopeSound
  induction fits with
  | text value span =>
    intro node built
    cases built
    exact .text value
  | block block =>
    intro node built
    rw [buildNode] at built
    obtain ⟨found, evaluated, rooted⟩ := bind_eq_ok.mp built
    obtain ⟨valueSafe, memorySafe⟩ := evaluate_safe scopeSafe (mapError_eq_ok.mp evaluated)
    exact rootNode_valid (splice_valid valueSafe memorySafe) (mapError_eq_ok.mp rooted)
  | @element head required optional start names _ requiredFit _ requiredHypothesis
      optionalHypothesis =>
      intro node built
      obtain ⟨started, children, bound, finished, startedOk, childrenBuilt, boundOk, finishedOk,
        rfl⟩ := buildNode_element_eq_ok built
      have begun := startElement_begun scopeSafe (known _ start.known) start startedOk
      have childrenValid : ∀ child ∈ children, child.Valid := by
        intro child member
        obtain ⟨childPlan, planMember, childBuilt⟩ :=
          exists_left_of_mem (mapM_eq_ok.mp childrenBuilt) member
        exact requiredHypothesis childPlan planMember child childBuilt
      have described := (Blameless.mapM fun childPlan member =>
        buildNode_blameless (requiredFit childPlan member)).of_eq_ok childrenBuilt
      have grown := setRequired_grown begun (schemaNames_of_describes described names)
        childrenValid boundOk
      have finishedGrown := appendOptional_grown scopeSafe optionalHypothesis grown finishedOk
      exact .element finishedGrown.keepsSchema finishedGrown.required finishedGrown.optional

end Build

/-- An element, something that hands out a text and a node, and something to call. -/
def givenNames : Table Value := [
  ("mark", .node (.element (.ofSchema ⟨"mark", [("id", .string "String")], [], none,
    ["FlowContent"]⟩ none))),
  ("items", .stream [.text "<", .node (.verbatim "&")] none none (.given 0)),
  ("direction", .function "direction" (.text "rtl") (.given 1))]

theorem givenNames_sound : ∀ entry ∈ givenNames, entry.2.Sound := by
  have markValid : Document.Node.Valid (.element (.ofSchema
      ⟨"mark", [("id", .string "String")], [], none, ["FlowContent"]⟩ none)) := by
    refine .element ⟨rfl, List.forall_mem_nil _, ?_, List.forall_mem_nil _⟩ (List.forall_mem_nil _)
      (List.forall_mem_nil _)
    exact (Build.begun_ofSchema _ none).attributes
  let _ : Endings := .any
  have items : AllSafe [.text "<", .node (.verbatim "&")] :=
    .cons (safe_text "<") (.cons (.of_none (.verbatim "&") rfl) allSafe_nil)
  intro entry member
  apply Value.sound_iff_safe.mpr
  simp only [givenNames, List.mem_cons, List.not_mem_nil, or_false] at member
  rcases member with rfl | rfl | rfl
  · exact .of_none markValid rfl
  · exact .of_parts (fun failure never => (nomatch never)) items
  · exact .of_parts trivial (AllSafe.cons (safe_text "rtl") allSafe_nil)

/-- A unit whose attributes and children are written, computed and taken from the scope. -/
def mixedDocument : String :=
  "<html><head><title/></head><body dir=\x7b direction() \x7d " ++
    "class=\x7b (\"a\", \"b\") \x7d tabindex=\"2\" onload=\"go()\">" ++
    "\"t\" \x7b items \x7d \x7b mark \x7d</body></html>"

end TypedMarkup
