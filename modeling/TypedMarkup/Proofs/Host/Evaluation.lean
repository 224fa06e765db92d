import TypedMarkup.Proofs.Host.Operations

/-!
Contract: evaluation among safe values gives safe values.

Owns: `EvaluationKeeps`, what all functions of the evaluator keep with a given fuel, and the proof
that one more unit of fuel adds nothing to it, function by function.
-/

namespace TypedMarkup.Host

open Endings Run

variable [Endings]

/-- All functions of the evaluator keep memories safe with this fuel, and their results are
safe. -/
structure EvaluationKeeps (fuel : Nat) : Prop where
  eval : ∀ frame term, Keeps Value.Safe (eval fuel frame term)
  compareChain : ∀ frame left rest, Keeps Value.Safe (compareChain fuel frame left rest)
  compareValues : ∀ comparison left right, Value.Safe right →
    Keeps anything (compareValues fuel comparison left right)
  isMember : ∀ value container, Value.Safe container →
    Keeps anything (isMember fuel value container)
  search : ∀ value reference, Keeps anything (search fuel value reference)
  call : ∀ callee positional named, Value.Safe callee → AllSafe positional →
    (∀ entry ∈ named, Value.Safe entry.2) → Keeps Value.Safe (call fuel callee positional named)
  callPlain : ∀ callee arguments, Value.Safe callee → AllSafe arguments →
    Keeps Value.Safe (callPlain fuel callee arguments)
  callKind : ∀ name arguments, AllSafe arguments →
    Keeps Value.Safe (callKind fuel name arguments)
  callFunction : ∀ name arguments, AllSafe arguments →
    Keeps Value.Safe (callFunction fuel name arguments)
  itemsOf : ∀ value, Value.Safe value → Keeps AllSafe (itemsOf fuel value)
  drain : ∀ reference taken, AllSafe taken → Keeps AllSafe (drain fuel reference taken)
  drainEntries : ∀ reference written, EntriesSafe written →
    Keeps EntriesSafe (drainEntries fuel reference written)
  drainDistinct : ∀ reference taken, AllSafe taken →
    Keeps AllSafe (drainDistinct fuel reference taken)
  takeItems : ∀ reference count, Keeps AllSafe (takeItems fuel reference count)
  takeRow : ∀ sources, Keeps (∀ row ∈ ·, AllSafe row) (takeRow fuel sources)
  next : ∀ reference, Keeps (∀ item ∈ ·, Value.Safe item) (next fuel reference)
  resume : ∀ frame due loops,
    Keeps (∀ found ∈ ·, Value.Safe found.1) (resume fuel frame due loops)
  bindTarget : ∀ frame target item, Value.Safe item →
    Keeps anything (bindTarget fuel frame target item)
  bindTargets : ∀ frame entries, (∀ entry ∈ entries, Value.Safe entry.2) →
    Keeps anything (bindTargets fuel frame entries)

theorem evaluationKeeps_zero : EvaluationKeeps 0 := by
  constructor
  all_goals intros
  all_goals simp only [eval, compareChain, compareValues, isMember, search, call, callPlain,
    callKind, callFunction, itemsOf, drain, drainEntries, drainDistinct, takeItems, takeRow, next, resume,
    bindTarget, bindTargets]
  all_goals exact .throw _ rfl

section

variable {fuel : Nat} (previous : EvaluationKeeps fuel)

include previous

/-! ## Terms -/

theorem evalEntries_keeps (frame : Frame) (entries : List (Term × Term)) :
    Keeps EntriesSafe (entries.mapM fun entry => do
      let key ← eval fuel frame entry.1
      let value ← eval fuel frame entry.2
      return (key, value)) := by
  apply Keeps.mapM
  intro entry _
  apply (previous.eval frame entry.1).bind
  intro key keySafe
  apply (previous.eval frame entry.2).bind
  intro value valueSafe
  exact .pure ⟨keySafe, valueSafe⟩

theorem eval_dict_keeps (frame : Frame) (entries : List (Term × Term)) :
    Keeps Value.Safe (eval (fuel + 1) frame (.dict entries)) := by
  rw [eval]
  apply (evalEntries_keeps previous frame entries).bind
  intro pairs pairsSafe
  apply (Keeps.foldlM entriesSafe_nil ?_ : Keeps EntriesSafe _).bind
  · intro written writtenSafe
    exact .pure (safe_dict.mpr writtenSafe)
  · intro pair member written writtenSafe
    apply (Keeps.lift_any (checkKey_hostOnly _)).bind
    intro _ _
    obtain ⟨keySafe, valueSafe⟩ := pairsSafe pair member
    exact .pure (putEntry_safe keySafe valueSafe writtenSafe)

theorem eval_subscript_keeps (frame : Frame) (object index : Term) :
    Keeps Value.Safe (eval (fuel + 1) frame (.subscript object index)) := by
  by_cases isSlice : ∃ start stop step, index = .slice start stop step
  · obtain ⟨start, stop, step, rfl⟩ := isSlice
    rw [eval]
    apply (previous.eval frame object).bind
    intro sequence sequenceSafe
    apply (previous.eval frame start).bind
    intro first _
    apply (previous.eval frame stop).bind
    intro last _
    apply (previous.eval frame step).bind
    intro size _
    exact .lift ((slice_returns _ _ _ _).imp fun _ safe => safe sequenceSafe)
  · rw [eval]
    · apply (previous.eval frame object).bind
      intro collection collectionSafe
      apply (previous.eval frame index).bind
      intro key _
      dsimp only
      split
      · exact .throw_bind rfl
      · exact .lift ((subscript_returns _ _).imp fun _ safe => safe collectionSafe)
    · intro start stop step same
      exact isSlice ⟨start, stop, step, same⟩

theorem eval_comprehension_keeps (frame : Frame) (collection : Collection) (target : Target)
    (source : Term) (rest : Producer) :
    Keeps Value.Safe (eval (fuel + 1) frame (.comprehension collection target source rest)) := by
  rw [eval]
  apply (previous.eval frame source).bind
  intro origin originSafe
  apply (iterate_keeps originSafe).bind
  intro items _
  apply (declare_keeps _).bind
  intro own _
  refine Keeps.bind (begin_keeps trivial) ?_
  intro reference _
  cases collection with
  | list =>
    apply (previous.drain reference [] allSafe_nil).bind
    intro values valuesSafe
    exact .pure (.of_parts trivial valuesSafe)
  | dict =>
    apply (previous.drainEntries reference [] entriesSafe_nil).bind
    intro entries entriesSafe
    exact .pure (safe_dict.mpr entriesSafe)
  | generator => exact .pure (.of_none trivial rfl)

theorem eval_keeps (frame : Frame) (term : Term) :
    Keeps Value.Safe (eval (fuel + 1) frame term) := by
  cases term with
  | none | bool | int | real | text => rw [eval]; exact .pure (.of_none trivial rfl)
  | name identifier => rw [eval]; exact readName_keeps frame identifier
  | attributeOf object name =>
    rw [eval]
    apply (previous.eval frame object).bind
    intro value safe
    exact .lift (readAttribute_returns safe)
  | call function positional keywords named =>
    rw [eval]
    apply (previous.eval frame function).bind
    intro callee calleeSafe
    apply (Keeps.mapM fun term _ => previous.eval frame term).bind
    intro arguments argumentsSafe
    apply (Keeps.mapM fun term _ => previous.eval frame term).bind
    intro values valuesSafe
    apply previous.call callee arguments _ calleeSafe argumentsSafe
    intro entry member
    exact valuesSafe entry.2 (List.of_mem_zip member).2
  | list | tuple =>
    rw [eval]
    apply (Keeps.mapM fun term _ => previous.eval frame term).bind
    intro values valuesSafe
    exact .pure (.of_parts trivial valuesSafe)
  | dict entries => exact eval_dict_keeps previous frame entries
  | subscript object index => exact eval_subscript_keeps previous frame object index
  | slice start stop step =>
    rw [eval]
    apply (previous.eval frame start).bind
    intro first firstSafe
    apply (previous.eval frame stop).bind
    intro last lastSafe
    apply (previous.eval frame step).bind
    intro size sizeSafe
    have items : AllSafe [first, last, size] :=
      .cons firstSafe (.cons lastSafe (.cons sizeSafe allSafe_nil))
    exact .pure (.of_parts trivial items)
  | negate operand =>
    rw [eval]
    apply (previous.eval frame operand).bind
    intro value _
    apply (Keeps.lift negative_returns).bind
    intro result resultSafe
    exact settled_keeps resultSafe
  | plus operand =>
    rw [eval]
    apply (previous.eval frame operand).bind
    intro value safe
    exact .lift (positive_returns safe)
  | not operand =>
    rw [eval]
    apply (previous.eval frame operand).bind
    intro value _
    exact .pure (.of_none trivial rfl)
  | binary operator left right =>
    rw [eval]
    apply (previous.eval frame left).bind
    intro first firstSafe
    apply (previous.eval frame right).bind
    intro second secondSafe
    apply (Keeps.lift (arithmetic_returns firstSafe secondSafe)).bind
    intro result resultSafe
    exact settled_keeps resultSafe
  | compare first comparisons others =>
    rw [eval]
    apply (previous.eval frame first).bind
    intro left _
    exact previous.compareChain frame left _
  | and left right =>
    rw [eval]
    apply (previous.eval frame left).bind
    intro first firstSafe
    split
    · exact previous.eval frame right
    · exact .pure firstSafe
  | or left right =>
    rw [eval]
    apply (previous.eval frame left).bind
    intro first firstSafe
    split
    · exact .pure firstSafe
    · exact previous.eval frame right
  | conditional condition consequent alternative =>
    rw [eval]
    apply (previous.eval frame condition).bind
    intro chosen _
    split
    · exact previous.eval frame consequent
    · exact previous.eval frame alternative
  | lambda parameters defaults collector body =>
    rw [eval]
    apply (Keeps.mapM fun term _ => previous.eval frame term).bind
    intro values valuesSafe
    apply identity_keeps.bind
    intro number _
    exact .pure (.of_parts trivial valuesSafe)
  | comprehension collection target source rest =>
    exact eval_comprehension_keeps previous frame collection target source rest

/-! ## Comparisons -/

theorem compareChain_keeps (frame : Frame) (left : Value) (rest : List (Comparison × Term)) :
    Keeps Value.Safe (compareChain (fuel + 1) frame left rest) := by
  cases rest with
  | nil =>
    rw [compareChain]
    · exact .pure (.of_none trivial rfl)
    · simp
  | cons entry rest =>
    obtain ⟨comparison, other⟩ := entry
    rw [compareChain]
    apply (previous.eval frame other).bind
    intro right rightSafe
    apply (previous.compareValues comparison left right rightSafe).bind
    intro result _
    split
    · exact previous.compareChain frame right rest
    · exact .pure (.of_none trivial rfl)

theorem compareValues_keeps (comparison : Comparison) (left right : Value)
    (rightSafe : right.Safe) :
    Keeps anything (compareValues (fuel + 1) comparison left right) := by
  rw [compareValues.eq_def]
  dsimp only
  split
  · exact .pure trivial
  · exact .pure trivial
  · exact previous.isMember left right rightSafe
  · apply (previous.isMember left right rightSafe).bind
    intro found _
    exact .pure trivial
  · exact .lift_any (ordered_hostOnly _ _ _)

theorem isMember_keeps (value container : Value) (containerSafe : container.Safe) :
    Keeps anything (isMember (fuel + 1) value container) := by
  rw [isMember.eq_def]
  dsimp only
  split
  · exact previous.search value _
  · apply (iterate_keeps containerSafe).bind
    intro reference _
    exact previous.search value reference
  · exact .lift_any (contains_hostOnly _ _)

theorem search_keeps (value : Value) (reference : Nat) :
    Keeps anything (search (fuel + 1) value reference) := by
  rw [search]
  apply (previous.next reference).bind
  intro found _
  split
  · exact .pure trivial
  · split
    · exact .pure trivial
    · exact previous.search value reference

/-! ## Calls -/

theorem call_keeps (callee : Value) (positional : List Value) (named : List (String × Value))
    (calleeSafe : callee.Safe) (positionalSafe : AllSafe positional)
    (namedSafe : ∀ entry ∈ named, entry.2.Safe) :
    Keeps Value.Safe (call (fuel + 1) callee positional named) := by
  rw [call.eq_def]
  dsimp only
  split
  · exact .pure (calleeSafe.part List.mem_cons_self)
  · exact .throw _ rfl
  · next signature defaults body scopes identity =>
    have defaultsSafe : AllSafe defaults := fun _ member => calleeSafe.part member
    apply (Keeps.lift (bind_returns _ _ _ _)).bind
    intro bound boundSafe
    apply (declareWith_keeps (boundSafe defaultsSafe positionalSafe namedSafe)).bind
    intro own _
    exact nested_keeps (previous.eval _ body)
  · apply (Keeps.lift_any (makerArgument_hostOnly _ _ _)).bind
    intro value _
    apply (Keeps.lift_any (shown_hostOnly _)).bind
    intro shown _
    exact .pure (.of_none (.text shown) rfl)
  · apply (Keeps.lift_any (makerArgument_hostOnly _ _ _)).bind
    intro value _
    apply (Keeps.lift_any (shown_hostOnly _)).bind
    intro shown _
    exact .pure (.of_none (.verbatim shown) rfl)
  · split
    · exact previous.callPlain callee positional calleeSafe positionalSafe
    · split
      · exact .argumentFailure _
      · exact .throw _ rfl

theorem callPlain_keeps (callee : Value) (arguments : List Value) (calleeSafe : callee.Safe)
    (argumentsSafe : AllSafe arguments) :
    Keeps Value.Safe (callPlain (fuel + 1) callee arguments) := by
  rw [callPlain.eq_def]
  dsimp only
  split
  · next words =>
    split
    · exact .argumentFailure _
    · exact .lift (wordOf_returns calleeSafe.wellMade)
    · apply (Keeps.lift_any (shownLiteral_hostOnly _)).bind
      intro shown _
      exact .argumentFailure _
  · split
    · exact .argumentFailure _
    · next text rest =>
      split
      · apply previous.callPlain
        · exact .of_none trivial rfl
        · exact fun value member => argumentsSafe value (List.mem_cons_of_mem text member)
      · exact .argumentFailure _
  · split
    · exact .pure (safe_text _)
    · exact .argumentFailure _
  · split
    · next source =>
      split
      · apply (previous.itemsOf source (argumentsSafe source List.mem_cons_self)).bind
        intro items _
        exact .lift joined_returns
      · exact .throw _ rfl
    · exact .argumentFailure _
  · split
    · exact .lift checkedOf_returns
    · exact .argumentFailure _
    · exact .argumentFailure _
  · split
    · exact .pure (.of_none trivial rfl)
    · next source =>
      apply (iterate_keeps (argumentsSafe source List.mem_cons_self)).bind
      intro reference _
      apply (previous.drainDistinct reference [] allSafe_nil).bind
      intro items itemsSafe
      exact .pure (.of_parts trivial itemsSafe)
    · exact .argumentFailure _
  · split
    · exact .pure (.of_none trivial rfl)
    · next source =>
      apply (previous.itemsOf source (argumentsSafe source List.mem_cons_self)).bind
      intro items itemsSafe
      exact .pure (.of_parts trivial itemsSafe)
    · exact .argumentFailure _
  · exact previous.callKind _ arguments argumentsSafe
  · exact previous.callFunction _ arguments argumentsSafe
  · exact .throw _ rfl

theorem callKind_keeps (name : String) (arguments : List Value)
    (argumentsSafe : AllSafe arguments) :
    Keeps Value.Safe (callKind (fuel + 1) name arguments) := by
  rw [callKind.eq_def]
  dsimp only
  split
  · exact .lift textOf_returns
  · exact .pure (.of_none trivial rfl)
  · exact .lift integerOf_returns
  · exact .lift integerInBase_returns
  · exact .argumentFailure _
  · exact .pure (.of_none trivial rfl)
  · next value =>
    have valueSafe := argumentsSafe value List.mem_cons_self
    apply (Keeps.lift (floatOf_returns valueSafe)).bind
    intro result resultSafe
    exact settled_keeps resultSafe
  · exact .pure (.of_none trivial rfl)
  · exact .pure (.of_none trivial rfl)
  · exact .pure (.of_none trivial rfl)
  · next source =>
    apply (previous.itemsOf source (argumentsSafe source List.mem_cons_self)).bind
    intro items itemsSafe
    exact .pure (.of_parts trivial itemsSafe)
  · exact .pure (.of_none trivial rfl)
  · next source =>
    apply (previous.itemsOf source (argumentsSafe source List.mem_cons_self)).bind
    intro items itemsSafe
    exact .pure (.of_parts trivial itemsSafe)
  · exact .lift rangeOf_returns
  · next function source more =>
    obtain ⟨functionSafe, sourcesSafe⟩ := List.forall_mem_cons.mp argumentsSafe
    apply (Keeps.mapM fun value member => iterate_keeps (sourcesSafe value member)).bind
    intro sources _
    refine Keeps.bind (begin_keeps functionSafe) ?_
    intro reference _
    exact .pure (.of_none trivial rfl)
  · exact .argumentFailure _
  · exact .argumentFailure _

theorem callFunction_keeps (name : String) (arguments : List Value)
    (argumentsSafe : AllSafe arguments) :
    Keeps Value.Safe (callFunction (fuel + 1) name arguments) := by
  rw [callFunction.eq_def]
  dsimp only
  split
  · apply (Keeps.lift_any (lengthOf_hostOnly _)).bind
    intro length _
    exact .pure (.of_none trivial rfl)
  · apply (Keeps.lift absoluteOf_returns).bind
    intro result resultSafe
    exact settled_keeps resultSafe
  · apply (Keeps.lift_any (shownLiteral_hostOnly _)).bind
    intro shown _
    exact .pure (safe_text shown)
  · apply (Keeps.forIn ?_).bind
    · intro _ _
      exact .pure (.of_none trivial rfl)
    · intro value _
      apply (Keeps.lift_any (shown_hostOnly _)).bind
      intro shown _
      exact .pure trivial
  · next source =>
    apply (previous.itemsOf source (argumentsSafe source List.mem_cons_self)).bind
    intro items itemsSafe
    apply (Keeps.lift (sortValues_returns _)).bind
    intro sorted among
    exact .pure (.of_parts trivial fun item member => itemsSafe item (among item member))
  · exact .argumentFailure _
  · exact .argumentFailure _

/-! ## Iterations -/

theorem itemsOf_keeps (value : Value) (safe : value.Safe) :
    Keeps AllSafe (itemsOf (fuel + 1) value) := by
  rw [itemsOf]
  apply (iterate_keeps safe).bind
  intro reference _
  apply (Keeps.lift_any (checkRoom_hostOnly _)).bind
  intro _ _
  exact previous.drain reference [] allSafe_nil

theorem drain_keeps (reference : Nat) (taken : List Value) (takenSafe : AllSafe taken) :
    Keeps AllSafe (drain (fuel + 1) reference taken) := by
  rw [drain]
  apply (previous.next reference).bind
  intro found foundSafe
  split
  · exact .pure fun value member => takenSafe value (List.mem_reverse.mp member)
  · next item => exact previous.drain reference _ (takenSafe.cons (foundSafe item rfl))

theorem drainEntries_keeps (reference : Nat) (written : List (Value × Value))
    (writtenSafe : EntriesSafe written) :
    Keeps EntriesSafe (drainEntries (fuel + 1) reference written) := by
  rw [drainEntries]
  apply (previous.next reference).bind
  intro found foundSafe
  split
  · next key value =>
    have pairSafe := foundSafe _ rfl
    apply (Keeps.lift_any (checkKey_hostOnly _)).bind
    intro _ _
    apply previous.drainEntries
    exact putEntry_safe (pairSafe.part List.mem_cons_self)
      (pairSafe.part (List.mem_cons_of_mem key List.mem_cons_self)) writtenSafe
  · exact .pure writtenSafe

theorem drainDistinct_keeps (reference : Nat) (taken : List Value) (takenSafe : AllSafe taken) :
    Keeps AllSafe (drainDistinct (fuel + 1) reference taken) := by
  rw [drainDistinct]
  apply (previous.next reference).bind
  intro found foundSafe
  split
  · exact .pure takenSafe
  · next item =>
    apply (Keeps.lift_any (checkKey_hostOnly _)).bind
    intro _ _
    apply previous.drainDistinct
    exact insertDistinct_safe takenSafe (foundSafe item rfl)

theorem takeItems_keeps (reference count : Nat) :
    Keeps AllSafe (takeItems (fuel + 1) reference count) := by
  cases count with
  | zero =>
    rw [takeItems]
    · exact .pure allSafe_nil
    · simp
  | succ count =>
    rw [takeItems]
    apply (previous.next reference).bind
    intro found foundSafe
    split
    · exact .pure allSafe_nil
    · next item =>
      apply (previous.takeItems reference count).bind
      intro more moreSafe
      exact .pure (moreSafe.cons (foundSafe item rfl))

theorem takeRow_keeps (sources : List Nat) :
    Keeps (∀ row ∈ ·, AllSafe row) (takeRow (fuel + 1) sources) := by
  cases sources with
  | nil =>
    rw [takeRow]
    · apply Keeps.pure
      rintro row ⟨⟩
      exact allSafe_nil
    · simp
  | cons source rest =>
    rw [takeRow]
    apply (previous.next source).bind
    intro found foundSafe
    split
    · apply Keeps.pure
      rintro row ⟨⟩
    · next item =>
      apply (previous.takeRow rest).bind
      intro more moreSafe
      apply Keeps.pure
      intro row made
      obtain ⟨others, present, rfl⟩ := Option.map_eq_some_iff.mp made
      exact (moreSafe others present).cons (foundSafe item rfl)

theorem next_keeps (reference : Nat) :
    Keeps (∀ item ∈ ·, Value.Safe item) (next (fuel + 1) reference) := by
  have ended : ∀ item ∈ (none : Option Value), item.Safe := by
    rintro item ⟨⟩
  have unfailing : ∀ failure ∈ (none : Option Failure), Expected failure := by
    rintro failure ⟨⟩
  have taken : ∀ {value : Value}, value.Safe → ∀ item ∈ some value, item.Safe := by
    rintro value safe item ⟨⟩
    exact safe
  rw [next]
  apply (iteration_keeps reference).bind
  intro iteration safe
  split
  · exact .pure ended
  · exact .throw_expected (safe.2 _ rfl)
  · next item rest finish =>
    obtain ⟨itemSafe, restSafe⟩ := List.forall_mem_cons.mp safe.1
    refine Keeps.bind (proceed_keeps reference ⟨restSafe, safe.2⟩) ?_
    intro _ _
    exact .pure (taken itemSafe)
  · exact .pure ended
  · refine Keeps.bind (proceed_keeps reference trivial) ?_
    intro _ _
    exact .pure (taken (.of_none trivial rfl))
  · next function sources =>
    apply (previous.takeRow sources).bind
    intro row rowSafe
    split
    · exact .pure ended
    · next arguments =>
      have called := previous.call function arguments [] safe (rowSafe arguments rfl)
        (List.forall_mem_nil _)
      apply called.bind
      intro result resultSafe
      exact .pure (taken resultSafe)
  · next frame loops =>
    refine Keeps.bind (proceed_keeps reference trivial) ?_
    intro _ _
    apply (nested_keeps (previous.resume frame none loops)).bind
    intro found foundSafe
    split
    · refine Keeps.bind (proceed_keeps reference ⟨allSafe_nil, unfailing⟩) ?_
      intro _ _
      exact .pure ended
    · next item inside =>
      refine Keeps.bind (proceed_keeps reference trivial) ?_
      intro _ _
      exact .pure (taken (foundSafe _ rfl))
  · exact .throw _ rfl

theorem resume_keeps (frame : Frame) (due : Option Producer) (loops : List Loop) :
    Keeps (∀ found ∈ ·, Value.Safe found.1) (resume (fuel + 1) frame due loops) := by
  have yielded : ∀ {value : Value} {inside : List Loop}, value.Safe →
      ∀ found ∈ some (value, inside), found.1.Safe := by
    rintro value inside safe found ⟨⟩
    exact safe
  rw [resume.eq_def]
  dsimp only
  split
  · next item =>
    apply (previous.eval frame item).bind
    intro value valueSafe
    exact .pure (yielded valueSafe)
  · next key value =>
    apply (previous.eval frame key).bind
    intro first firstSafe
    apply (previous.eval frame value).bind
    intro second secondSafe
    have items : AllSafe [first, second] := .cons firstSafe (.cons secondSafe allSafe_nil)
    exact .pure (yielded (.of_parts trivial items))
  · next condition rest =>
    apply (previous.eval frame condition).bind
    intro chosen _
    exact previous.resume frame _ loops
  · next target source rest =>
    apply (previous.eval frame source).bind
    intro origin originSafe
    apply (iterate_keeps originSafe).bind
    intro items _
    exact previous.resume frame none _
  · split
    · apply Keeps.pure
      rintro found ⟨⟩
    · next loop outer =>
      apply (previous.next loop.source).bind
      intro found foundSafe
      split
      · exact previous.resume frame none outer
      · next item =>
        apply (previous.bindTarget frame loop.target item (foundSafe item rfl)).bind
        intro _ _
        exact previous.resume frame _ _

theorem bindTarget_keeps (frame : Frame) (target : Target) (item : Value) (itemSafe : item.Safe) :
    Keeps anything (bindTarget (fuel + 1) frame target item) := by
  rw [bindTarget.eq_def]
  dsimp only
  split
  · split
    · exact assign_keeps _ itemSafe
    · exact .pure trivial
  · next parts =>
    split
    · exact .throw_bind rfl
    · apply (iterate_keeps itemSafe).bind
      intro reference _
      apply (previous.takeItems reference (parts.length + 1)).bind
      intro values valuesSafe
      have bound : Keeps anything (bindTargets fuel frame (parts.zip values)) := by
        apply previous.bindTargets
        intro entry member
        exact valuesSafe entry.2 (List.of_mem_zip member).2
      split
      · exact .throw_bind rfl
      · split
        · exact .throw_bind rfl
        · exact bound

theorem bindTargets_keeps (frame : Frame) (entries : List (Target × Value))
    (entriesSafe : ∀ entry ∈ entries, Value.Safe entry.2) :
    Keeps anything (bindTargets (fuel + 1) frame entries) := by
  cases entries with
  | nil =>
    rw [bindTargets]
    · exact .pure trivial
    · simp
  | cons entry rest =>
    obtain ⟨target, item⟩ := entry
    obtain ⟨itemSafe, restSafe⟩ := List.forall_mem_cons.mp entriesSafe
    rw [bindTargets]
    apply (previous.bindTarget frame target item itemSafe).bind
    intro _ _
    exact previous.bindTargets frame rest restSafe

end

/-- The evaluator keeps memories safe, whatever its fuel. -/
theorem evaluationKeeps (fuel : Nat) : EvaluationKeeps fuel := by
  induction fuel with
  | zero => exact evaluationKeeps_zero
  | succ fuel ih =>
    exact ⟨eval_keeps ih, compareChain_keeps ih, compareValues_keeps ih, isMember_keeps ih,
      search_keeps ih, call_keeps ih, callPlain_keeps ih, callKind_keeps ih, callFunction_keeps ih,
      itemsOf_keeps ih, drain_keeps ih, drainEntries_keeps ih, drainDistinct_keeps ih,
      takeItems_keeps ih, takeRow_keeps ih, next_keeps ih, resume_keeps ih, bindTarget_keeps ih,
      bindTargets_keeps ih⟩

theorem pull_keeps (reference : Nat) : Keeps (∀ item ∈ ·, Value.Safe item) (pull reference) :=
  (evaluationKeeps steps).next reference

end TypedMarkup.Host
