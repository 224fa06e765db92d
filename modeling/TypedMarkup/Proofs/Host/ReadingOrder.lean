import TypedMarkup.Host.FreeNames
import TypedMarkup.Host.Grammar

/-!
Contract: a term lists the names that it reads in the order of the text.

Owns: `Spells`, that names stand in this order among the words between two places of the text,
`Reads`, that whatever a step reads spells its names, and one lemma for each rule of the grammar.

The rules call one another with less fuel, so `RulesSpell` collects what they promise at one fuel,
and the lemma of a rule draws on the promises at the fuel below.
-/

namespace TypedMarkup.Host

/-- The words among lexical units. -/
def wordsOf (units : List Lexeme) : List String :=
  units.filterMap fun
    | .word name => some name
    | _ => none

/-- The names stand in this order among the words of `units` before `rest`. -/
def Spells (names : List String) (units rest : List Lexeme) : Prop :=
  (names ++ wordsOf rest).Sublist (wordsOf units)

namespace Spells

variable {names more : List String} {units middle rest : List Lexeme}

theorem refl (units : List Lexeme) : Spells [] units units :=
  List.Sublist.refl _

theorem followedBy (first : Spells names units middle) (second : Spells more middle rest) :
    Spells (names ++ more) units rest := by
  unfold Spells at *
  rw [List.append_assoc]
  exact (second.append_left names).trans first

theorem fewer (spells : Spells names units rest) (fewer : more.Sublist names) :
    Spells more units rest :=
  (fewer.append_right _).trans spells

theorem passing (first : Spells names units middle) (second : Spells [] middle rest) :
    Spells names units rest :=
  (first.followedBy second).fewer (List.sublist_append_left _ _)

theorem behind_first (unit : Lexeme) (units : List Lexeme) : Spells [] (unit :: units) units :=
  (List.sublist_cons_self unit units).filterMap _

theorem behind (units : List Lexeme) : Spells [] units (units.drop 1) :=
  (List.drop_sublist 1 units).filterMap _

end Spells

/-- Whatever a step finds, the names of what it finds stand behind `start`. -/
def Reads {α : Type} (names : α → List String) (start : List Lexeme)
    (step : Option (α × List Lexeme)) : Prop :=
  ∀ found rest, step = some (found, rest) → Spells (names found) start rest

section

variable {α β : Type} {names : α → List String} {more : β → List String} {spelled : List String}
  {start middle : List Lexeme}

theorem Reads.pure {found : α} {rest : List Lexeme} (spells : Spells (names found) start rest) :
    Reads names start (some (found, rest)) := by
  rintro _ _ ⟨⟩
  exact spells

theorem Reads.none : Reads names start none :=
  fun _ _ same => nomatch same

/-- One step behind what is spelled already, and what follows it. -/
theorem Spells.bind {step : Option (α × List Lexeme)}
    {next : α × List Lexeme → Option (β × List Lexeme)} (before : Spells spelled start middle)
    (reads : Reads names middle step)
    (further : ∀ found rest, Spells (spelled ++ names found) start rest →
      Reads more start (next (found, rest))) : Reads more start (step >>= next) := by
  intro result stop read
  obtain ⟨⟨found, rest⟩, here, later⟩ := Option.bind_eq_some_iff.mp read
  exact further found rest (before.followedBy (reads found rest here)) result stop later

/-- The same for a step that passes over units. -/
theorem Spells.pass {step : Option (List Lexeme)} {next : List Lexeme → Option (β × List Lexeme)}
    (before : Spells spelled start middle)
    (passes : ∀ rest, step = some rest → Spells [] middle rest)
    (further : ∀ rest, Spells spelled start rest → Reads more start (next rest)) :
    Reads more start (step >>= next) := by
  intro result stop read
  obtain ⟨rest, here, later⟩ := Option.bind_eq_some_iff.mp read
  exact further rest (before.passing (passes rest here)) result stop later

/-- A step whose result is only put in another form. -/
theorem Spells.map {step : Option (α × List Lexeme)} {change : α × List Lexeme → β × List Lexeme}
    (before : Spells spelled start middle) (reads : Reads names middle step)
    (further : ∀ found rest, Spells (spelled ++ names found) start rest →
      Spells (more (change (found, rest)).1) start (change (found, rest)).2) :
    Reads more start (step.map change) := by
  intro result stop read
  obtain ⟨⟨found, rest⟩, here, same⟩ := Option.map_eq_some_iff.mp read
  have spells := further found rest (before.followedBy (reads found rest here))
  rwa [same] at spells

end

open Spells

theorem Grammar.symbol_passes {written : String} {units : List Lexeme} (rest : List Lexeme)
    (read : Grammar.symbol written units = some rest) : Spells [] units rest := by
  unfold Grammar.symbol at read
  split at read
  · split at read
    · cases read
      exact behind_first _ _
    · cases read
  · cases read

theorem Reads.closed {α : Type} {names : α → List String} {start middle : List Lexeme} {found : α}
    {written : String} (spells : Spells (names found) start middle) :
    Reads names start (Grammar.symbol written middle >>= fun rest => some (found, rest)) :=
  spells.pass Grammar.symbol_passes fun _ spells => .pure spells

namespace Grammar

theorem word_passes {name : String} {units : List Lexeme} (rest : List Lexeme)
    (read : word name units = some rest) : Spells [] units rest := by
  unfold word at read
  split at read
  · split at read
    · cases read
      exact behind_first _ _
    · cases read
  · cases read

theorem identifier_reads (units : List Lexeme) :
    Reads (fun name => [name]) units (identifier units) := by
  unfold identifier
  split
  · split
    · exact .none
    · exact .pure (List.Sublist.refl _)
  · exact .none

/-- A name that is bound, not read. -/
theorem identifier_passes (units : List Lexeme) : Reads (fun _ => []) units (identifier units) :=
  fun name rest read => (identifier_reads units name rest read).fewer (List.nil_sublist _)

theorem comparison?_passes (units : List Lexeme) :
    Reads (fun _ => []) units (comparison? units) := by
  unfold comparison?
  split
  case h_8 => exact .pure ((behind_first _ _).passing (behind_first _ _))
  case h_9 => exact .none
  all_goals exact .pure (behind_first _ _)

theorem sumOperator?_passes (units : List Lexeme) :
    Reads (fun _ => []) units (sumOperator? units) := by
  unfold sumOperator?
  split
  case h_3 => exact .none
  all_goals exact .pure (behind_first _ _)

theorem productOperator?_passes (units : List Lexeme) :
    Reads (fun _ => []) units (productOperator? units) := by
  unfold productOperator?
  split
  case h_5 => exact .none
  all_goals exact .pure (behind_first _ _)

theorem texts_spells (units : List Lexeme) : Spells [] units (texts units).2 := by
  fun_induction texts units with
  | case1 value rest more ih =>
    exact (behind_first _ _).passing ih
  | case2 => exact refl _

/-! ## What a loop binds -/

/-- The rules for what a loop binds pass over units. -/
structure TargetsPass (fuel : Nat) : Prop where
  part (units) : Reads (fun _ => []) units (targetPart fuel units)
  whole (units) : Reads (fun _ => []) units (target fuel units)
  parts (units) : Reads (fun _ => []) units (targetParts fuel units)

theorem targets_pass (fuel : Nat) : TargetsPass fuel := by
  induction fuel with
  | zero => constructor <;> exact fun _ => .none
  | succ fuel below =>
    constructor <;> intro units
    · unfold targetPart
      split
      · split
        · exact .pure ((behind_first _ _).passing (behind _))
        · refine (behind_first _ _).bind (below.whole _) fun _ _ spells => ?_
          exact .closed spells
      · refine (behind_first _ _).bind (below.parts _) fun _ _ spells => ?_
        exact .closed spells
      · exact (refl units).map (identifier_passes units) fun _ _ spells => spells
    · unfold target
      refine (refl units).bind (below.part units) fun first after spells => ?_
      dsimp only
      split
      · exact (spells.passing (behind _)).bind (below.parts _) fun _ _ spells => .pure spells
      · exact .pure spells
    · unfold targetParts
      split
      · exact .pure (refl units)
      · next first after readFirst =>
        have spells := below.part units first after readFirst
        split
        · exact (spells.passing (behind _)).bind (below.parts _) fun _ _ spells => .pure spells
        · exact .pure spells

/-! ## Expressions -/

/-- The names that the values of parameters read. -/
def Parameters.reads (parameters : Parameters) : List String :=
  readsAll (parameters.optional.map Prod.snd)

def Arguments.reads (arguments : Arguments) : List String :=
  readsAll arguments.positional ++ readsAll arguments.named

/-- What the rules promise at a fuel. A rule that goes on from a term is given where the term
starts, and the clauses of a comprehension are given what it yields, which stands before them. -/
structure RulesSpell (fuel : Nat) : Prop where
  expression (units) : Reads Term.reads units (expression fuel units)
  lambdaParameters (units) : Reads Parameters.reads units (lambdaParameters fuel units)
  moreParameters (units) : Reads Parameters.reads units (moreParameters fuel units)
  disjunction (units) : Reads Term.reads units (disjunction fuel units)
  conjunction (units) : Reads Term.reads units (conjunction fuel units)
  inversion (units) : Reads Term.reads units (inversion fuel units)
  comparisons {units found others rest}
    (read : comparisons fuel units = some (found, others, rest)) :
    Spells (readsAll others) units rest
  sum (units) : Reads Term.reads units (sum fuel units)
  sumRest {start units left} (before : Spells left.reads start units) :
    Reads Term.reads start (sumRest fuel left units)
  product (units) : Reads Term.reads units (product fuel units)
  productRest {start units left} (before : Spells left.reads start units) :
    Reads Term.reads start (productRest fuel left units)
  signedTerm (units) : Reads Term.reads units (signedTerm fuel units)
  trailers {start units object} (before : Spells object.reads start units) :
    Reads Term.reads start (trailers fuel object units)
  callArguments (units) : Reads Arguments.reads units (callArguments fuel units)
  furtherArguments (units) : Reads Arguments.reads units (furtherArguments fuel units)
  namedArguments (units) : Reads Arguments.reads units (namedArguments fuel units)
  subscriptIndex (units) : Reads Term.reads units (subscriptIndex fuel units)
  moreSlices (units) : Reads readsAll units (moreSlices fuel units)
  slice (units) : Reads Term.reads units (slice fuel units)
  slicePart (units) : Reads (fun found => (found.getD .none).reads) units (slicePart fuel units)
  atom (units) : Reads Term.reads units (atom fuel units)
  moreItems (closing units) : Reads readsAll units (moreItems fuel closing units)
  moreEntries (units) : Reads readsEntries units (moreEntries fuel units)
  comprehension {collection yielded start units} (before : Spells yielded.yieldReads start units)
    (bare : yielded.clauseReads = []) :
    Reads Term.reads start (comprehension fuel collection yielded units)
  clauses {yielded units found rest} (bare : yielded.clauseReads = [])
    (read : clauses fuel yielded units = some (found, rest)) :
    Spells found.clauseReads units rest ∧ found.yieldReads = yielded.yieldReads

section

variable {fuel : Nat} (below : RulesSpell fuel) (units : List Lexeme)

include below

theorem expression_spells : Reads Term.reads units (expression (fuel + 1) units) := by
  unfold expression
  split
  · refine (behind units).bind (below.lambdaParameters _) fun parameters _ spells => ?_
    refine spells.pass symbol_passes fun _ spells => ?_
    exact spells.bind (below.expression _) fun _ _ spells => .pure spells
  · refine (refl units).bind (below.disjunction units) fun consequent after spells => ?_
    dsimp only
    split
    · refine (spells.passing (behind _)).bind (below.disjunction _) fun condition _ spells => ?_
      refine spells.pass word_passes fun _ spells => ?_
      exact spells.bind (below.expression _) fun _ _ spells => .pure spells
    · exact .pure spells

theorem lambdaParameters_spells :
    Reads Parameters.reads units (lambdaParameters (fuel + 1) units) := by
  unfold lambdaParameters
  split
  · exact .pure (refl _)
  · split
    · refine (behind units).bind (identifier_passes _) fun name after spells => ?_
      dsimp only
      have passed : Spells [] units (if atSymbol "," after then after.drop 1 else after) := by
        split
        · exact spells.passing (behind _)
        · exact spells
      by_cases atColon : atSymbol ":" (if atSymbol "," after then after.drop 1 else after) = true
      · rw [if_pos atColon]
        exact .pure passed
      · rw [if_neg atColon]
        exact .none
    · refine (refl units).bind (identifier_passes _) fun name after spells => ?_
      dsimp only
      split
      · refine (spells.passing (behind _)).bind (below.expression _) fun value _ spells => ?_
        refine spells.bind (below.moreParameters _) fun more _ spells => ?_
        dsimp only
        split
        · exact .pure spells
        · exact .none
      · exact spells.bind (below.moreParameters _) fun more _ spells => .pure spells

theorem moreParameters_spells : Reads Parameters.reads units (moreParameters (fuel + 1) units) := by
  unfold moreParameters
  split
  · intro found rest read
    exact (behind units).followedBy (below.lambdaParameters _ found rest read)
  · split
    · exact .pure (refl _)
    · exact .none

theorem disjunction_spells : Reads Term.reads units (disjunction (fuel + 1) units) := by
  unfold disjunction
  refine (refl units).bind (below.conjunction units) fun left after spells => ?_
  dsimp only
  split
  · exact (spells.passing (behind _)).bind (below.disjunction _) fun _ _ spells => .pure spells
  · exact .pure spells

theorem conjunction_spells : Reads Term.reads units (conjunction (fuel + 1) units) := by
  unfold conjunction
  refine (refl units).bind (below.inversion units) fun left after spells => ?_
  dsimp only
  split
  · exact (spells.passing (behind _)).bind (below.conjunction _) fun _ _ spells => .pure spells
  · exact .pure spells

theorem inversion_spells : Reads Term.reads units (inversion (fuel + 1) units) := by
  unfold inversion
  split
  · exact (behind units).bind (below.inversion _) fun _ _ spells => .pure spells
  · refine (refl units).bind (below.sum units) fun first after spells => ?_
    rintro term rest read
    obtain ⟨⟨found, others, stop⟩, readOthers, read⟩ := Option.bind_eq_some_iff.mp read
    have whole := spells.followedBy (below.comparisons readOthers)
    dsimp only at read
    split at read <;> cases read
    · exact whole.fewer (List.sublist_append_left _ _)
    · exact whole

theorem comparisons_spells {units rest : List Lexeme} {found : List Comparison} {others : List Term}
    (read : comparisons (fuel + 1) units = some (found, others, rest)) :
    Spells (readsAll others) units rest := by
  unfold comparisons at read
  split at read
  · cases read
    exact refl _
  · next comparison start compared =>
    obtain ⟨⟨other, after⟩, readOther, read⟩ := Option.bind_eq_some_iff.mp read
    obtain ⟨⟨more, further, stop⟩, readMore, same⟩ := Option.bind_eq_some_iff.mp read
    cases same
    have spells := (comparison?_passes units _ _ compared).followedBy (below.sum _ _ _ readOther)
    exact spells.followedBy (below.comparisons readMore)

theorem sum_spells : Reads Term.reads units (sum (fuel + 1) units) := by
  unfold sum
  exact (refl units).bind (below.product units) fun _ _ spells => below.sumRest spells

theorem sumRest_spells {start units : List Lexeme} {left : Term}
    (before : Spells left.reads start units) :
    Reads Term.reads start (sumRest (fuel + 1) left units) := by
  unfold sumRest
  split
  · exact .pure before
  · next operator after found =>
    refine (before.passing (sumOperator?_passes units _ _ found)).bind (below.product _) ?_
    exact fun _ _ spells => below.sumRest spells

theorem product_spells : Reads Term.reads units (product (fuel + 1) units) := by
  unfold product
  exact (refl units).bind (below.signedTerm units) fun _ _ spells => below.productRest spells

theorem productRest_spells {start units : List Lexeme} {left : Term}
    (before : Spells left.reads start units) :
    Reads Term.reads start (productRest (fuel + 1) left units) := by
  unfold productRest
  split
  · exact .pure before
  · next operator after found =>
    refine (before.passing (productOperator?_passes units _ _ found)).bind (below.signedTerm _) ?_
    exact fun _ _ spells => below.productRest spells

theorem signedTerm_spells : Reads Term.reads units (signedTerm (fuel + 1) units) := by
  unfold signedTerm
  split
  · exact (behind units).bind (below.signedTerm _) fun _ _ spells => .pure spells
  · split
    · exact (behind units).bind (below.signedTerm _) fun _ _ spells => .pure spells
    · exact (refl units).bind (below.atom units) fun _ _ spells => below.trailers spells

theorem trailers_spells {start units : List Lexeme} {object : Term}
    (before : Spells object.reads start units) :
    Reads Term.reads start (trailers (fuel + 1) object units) := by
  unfold trailers
  split
  · refine (before.passing (behind_first _ _)).bind (identifier_passes _) fun _ _ spells => ?_
    exact below.trailers (spells.fewer (List.sublist_append_left _ _))
  · refine (before.passing (behind_first _ _)).bind (below.callArguments _) fun _ _ spells => ?_
    apply below.trailers
    rwa [Term.reads, List.append_assoc]
  · refine (before.passing (behind_first _ _)).bind (below.subscriptIndex _) fun _ _ spells => ?_
    exact spells.pass symbol_passes fun _ spells => below.trailers spells
  · exact .pure before

theorem callArguments_spells : Reads Arguments.reads units (callArguments (fuel + 1) units) := by
  unfold callArguments
  split
  · exact .pure (behind _)
  · split
    · split
      · exact .none
      · exact below.namedArguments _
    · refine (refl _).bind (below.expression _) fun first after spells => ?_
      dsimp only
      split
      · have yielded : Spells (Producer.yields first).yieldReads _ after := spells
        refine (refl _).bind (below.comprehension yielded rfl) fun generator _ spells => ?_
        refine spells.pass symbol_passes fun _ spells => .pure ?_
        simpa [Arguments.reads, readsAll] using spells
      · refine spells.bind (below.furtherArguments _) fun more _ spells => .pure ?_
        simpa [Arguments.reads, readsAll] using spells

theorem furtherArguments_spells :
    Reads Arguments.reads units (furtherArguments (fuel + 1) units) := by
  unfold furtherArguments
  split
  · exact .pure (behind _)
  · refine (refl units).pass symbol_passes fun start passed => ?_
    split
    · exact .pure (passed.passing (behind _))
    · split
      · split
        · exact .none
        · intro found rest read
          exact passed.followedBy (below.namedArguments _ found rest read)
      · refine passed.bind (below.expression _) fun argument _ spells => ?_
        refine spells.bind (below.furtherArguments _) fun more _ spells => .pure ?_
        simpa [Arguments.reads, readsAll] using spells

theorem namedArguments_spells : Reads Arguments.reads units (namedArguments (fuel + 1) units) := by
  unfold namedArguments
  split
  · exact .pure (behind _)
  · refine (refl units).bind (identifier_passes _) fun name _ spells => ?_
    refine spells.pass symbol_passes fun _ spells => ?_
    refine spells.bind (below.expression _) fun value after spells => ?_
    have named (more : Arguments) :
        (value.reads ++ readsAll more.named).Sublist (value.reads ++ more.reads) :=
      (List.sublist_append_right _ _).append_left _
    dsimp only
    split
    · refine (spells.passing (behind _)).bind (below.namedArguments _) fun more _ spells => ?_
      exact .pure (spells.fewer (named more))
    · have closes : Reads Arguments.reads after
          ((symbol ")" after).map fun closed => (⟨[], [], []⟩, closed)) := by
        intro found rest read
        obtain ⟨closed, close, same⟩ := Option.map_eq_some_iff.mp read
        cases same
        exact symbol_passes _ close
      exact spells.bind closes fun more _ spells => .pure (spells.fewer (named more))

theorem subscriptIndex_spells : Reads Term.reads units (subscriptIndex (fuel + 1) units) := by
  unfold subscriptIndex
  refine (refl units).bind (below.slice units) fun first after spells => ?_
  dsimp only
  split
  · exact spells.bind (below.moreSlices _) fun _ _ spells => .pure spells
  · exact .pure spells

theorem moreSlices_spells : Reads readsAll units (moreSlices (fuel + 1) units) := by
  unfold moreSlices
  split
  · split
    · exact .pure (behind _)
    · refine (behind units).bind (below.slice _) fun _ _ spells => ?_
      exact spells.bind (below.moreSlices _) fun _ _ spells => .pure spells
  · exact .pure (refl _)

theorem slice_spells : Reads Term.reads units (slice (fuel + 1) units) := by
  unfold slice
  refine (refl units).bind (below.slicePart units) fun start after spells => ?_
  dsimp only
  split
  · refine (spells.passing (behind _)).bind (below.slicePart _) fun stop after spells => ?_
    dsimp only
    split
    · exact (spells.passing (behind _)).bind (below.slicePart _) fun _ _ spells => .pure spells
    · refine .pure ?_
      simpa [Term.reads] using spells
  · split
    · exact .pure spells
    · exact .none

theorem slicePart_spells :
    Reads (fun found => (found.getD .none).reads) units (slicePart (fuel + 1) units) := by
  unfold slicePart
  split
  · exact .pure (refl _)
  · exact (refl units).map (below.expression units) fun _ _ spells => spells

theorem moreItems_spells (closing : String) (units : List Lexeme) :
    Reads readsAll units (moreItems (fuel + 1) closing units) := by
  unfold moreItems
  split
  · split
    · exact .pure (behind _)
    · refine (behind units).bind (below.expression _) fun _ _ spells => ?_
      exact spells.bind (below.moreItems closing _) fun _ _ spells => .pure spells
  · exact .pure (refl _)

theorem moreEntries_spells : Reads readsEntries units (moreEntries (fuel + 1) units) := by
  unfold moreEntries
  split
  · split
    · exact .pure (behind _)
    · refine (behind units).bind (below.expression _) fun _ _ spells => ?_
      refine spells.pass symbol_passes fun _ spells => ?_
      refine spells.bind (below.expression _) fun _ _ spells => ?_
      exact spells.bind (below.moreEntries _) fun _ _ spells => .pure spells
  · exact .pure (refl _)

theorem comprehension_spells {collection : Collection} {yielded : Producer}
    {start units : List Lexeme} (before : Spells yielded.yieldReads start units)
    (bare : yielded.clauseReads = []) :
    Reads Term.reads start (comprehension (fuel + 1) collection yielded units) := by
  unfold comprehension
  intro term rest read
  obtain ⟨⟨found, after⟩, readClauses, read⟩ := Option.bind_eq_some_iff.mp read
  obtain ⟨spelled, yields⟩ := below.clauses bare readClauses
  -- What is yielded stands before the clauses, so it is read from `start`, not from `units`.
  dsimp only at read
  split at read
  · cases read
    rw [Producer.clauseReads] at spelled
    rw [Producer.yieldReads] at yields
    rw [Term.reads, yields, List.append_assoc]
    exact before.followedBy spelled
  · cases read

theorem clauses_spells {units rest : List Lexeme} {yielded found : Producer}
    (bare : yielded.clauseReads = [])
    (read : clauses (fuel + 1) yielded units = some (found, rest)) :
    Spells found.clauseReads units rest ∧ found.yieldReads = yielded.yieldReads := by
  unfold clauses at read
  split at read
  · simp only [Option.bind_eq_bind, Option.bind_eq_some_iff, Prod.exists] at read
    obtain ⟨bound, afterTarget, readTarget, start, marked, source, after, readSource, more, stop,
      readMore, same⟩ := read
    cases same
    obtain ⟨spelled, yields⟩ := below.clauses bare readMore
    have passed : Spells [] units start :=
      (behind _).passing
          (((targets_pass fuel).whole _ _ _ readTarget).passing (word_passes _ marked))
    exact ⟨(passed.followedBy (below.disjunction _ _ _ readSource)).followedBy spelled, yields⟩
  · split at read
    · simp only [Option.bind_eq_bind, Option.bind_eq_some_iff, Prod.exists] at read
      obtain ⟨condition, after, readCondition, more, stop, readMore, same⟩ := read
      cases same
      obtain ⟨spelled, yields⟩ := below.clauses bare readMore
      have passed := (behind units).followedBy (below.disjunction _ _ _ readCondition)
      exact ⟨passed.followedBy spelled, yields⟩
    · cases read
      rw [bare]
      exact ⟨refl _, rfl⟩

theorem atom_spells : Reads Term.reads units (atom (fuel + 1) units) := by
  unfold atom
  split
  · exact .pure (behind_first _ _)
  · exact .pure (behind_first _ _)
  · exact .pure (texts_spells _)
  · exact .pure (behind_first _ _)
  · exact .pure (behind_first _ _)
  · exact .pure (behind_first _ _)
  · exact (refl _).map (identifier_reads _) fun _ _ spells => spells
  -- Brackets spell nothing themselves: the names are those of what stands between them.
  · split
    · exact .pure ((behind_first _ _).passing (behind _))
    · refine (behind_first _ _).bind (below.expression _) fun first after spells => ?_
      have yielded : Spells (Producer.yields first).yieldReads _ after := spells
      dsimp only
      split
      · refine (refl _).bind (below.comprehension yielded rfl) fun _ _ spells => ?_
        exact .closed spells
      · split
        · refine spells.bind (below.moreItems _ _) fun _ _ spells => ?_
          exact .closed spells
        · exact .closed spells
  · split
    · exact .pure ((behind_first _ _).passing (behind _))
    · refine (behind_first _ _).bind (below.expression _) fun first after spells => ?_
      have yielded : Spells (Producer.yields first).yieldReads _ after := spells
      dsimp only
      split
      · refine (refl _).bind (below.comprehension yielded rfl) fun _ _ spells => ?_
        exact .closed spells
      · refine spells.bind (below.moreItems _ _) fun _ _ spells => ?_
        exact .closed spells
  · split
    · exact .pure ((behind_first _ _).passing (behind _))
    · refine (behind_first _ _).bind (below.expression _) fun key _ spells => ?_
      refine spells.pass symbol_passes fun _ spells => ?_
      refine spells.bind (below.expression _) fun value after spells => ?_
      have yielded : Spells (Producer.yieldsPair key value).yieldReads _ after := spells
      dsimp only
      split
      · refine (refl _).bind (below.comprehension yielded rfl) fun _ _ spells => ?_
        exact .closed spells
      · refine spells.bind (below.moreEntries _) fun _ _ spells => ?_
        exact .closed spells
  · exact .none

end

theorem rules_spell (fuel : Nat) : RulesSpell fuel := by
  induction fuel with
  | zero => constructor <;> intros <;> first | exact .none | contradiction
  | succ fuel below =>
    exact ⟨expression_spells below, lambdaParameters_spells below, moreParameters_spells below,
      disjunction_spells below, conjunction_spells below, inversion_spells below,
      comparisons_spells below, sum_spells below, sumRest_spells below, product_spells below,
      productRest_spells below, signedTerm_spells below, trailers_spells below,
      callArguments_spells below, furtherArguments_spells below, namedArguments_spells below,
      subscriptIndex_spells below, moreSlices_spells below, slice_spells below,
      slicePart_spells below, atom_spells below, moreItems_spells below, moreEntries_spells below,
      comprehension_spells below, clauses_spells below⟩

end Grammar

/-- The names that a term reads stand in this order among the words of its text. -/
theorem reads_sublist_words {code : String} {term : Term} (read : Term.parse? code = some term) :
    ∃ units, lexemes? code = some units ∧ term.reads.Sublist (wordsOf units) := by
  obtain ⟨units, cut, read⟩ := Option.bind_eq_some_iff.mp read
  obtain ⟨-, -, read⟩ := Option.bind_eq_some_iff.mp read
  obtain ⟨⟨found, rest⟩, readFound, read⟩ := Option.bind_eq_some_iff.mp read
  dsimp only at read
  split at read
  · cases read
    refine ⟨units, cut, ?_⟩
    exact (List.sublist_append_left _ _).trans ((Grammar.rules_spell _).expression _ _ _ readFound)
  · cases read

end TypedMarkup.Host
