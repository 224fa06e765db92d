import TypedMarkup.Host.Evaluate
import TypedMarkup.Proofs.Failing

/-!
Contract: operations on host values end in no error of a unit.

Owns: `HostOnly` and `Returns`, and a lemma for each operation that an evaluation makes without
looking at its memory and that makes no value of its own. What such an operation fails for lies in
its values, so its failure has a kind.
-/

namespace TypedMarkup

/-- A computation fails for reasons that lie in host values only. -/
abbrev HostOnly {α : Type} (step : Except Failure α) : Prop :=
  FailsOnly (fun failure => failure.kind?.isSome = true) step

/-- A computation fails for such reasons only, and what it returns has a property. -/
abbrev Returns {α : Type} (property : α → Prop) (step : Except Failure α) : Prop :=
  EndsIn property (fun failure => failure.kind?.isSome = true) step

attribute [local simp] Failure.kind?

/-! ## Texts of values -/

theorem unlessObstructed_hostOnly {α : Type} (obstacle : Option Obstacle) (result : α) :
    HostOnly (unlessObstructed obstacle result) := by
  unfold unlessObstructed
  split
  · next found => cases found <;> simp [Obstacle.failure]
  · simp

theorem shown_hostOnly (value : Value) : HostOnly value.shown :=
  unlessObstructed_hostOnly _ _

theorem written_hostOnly (node : Document.Node) : HostOnly node.written :=
  unlessObstructed_hostOnly _ _

theorem shownLiteral_hostOnly (value : Value) : HostOnly value.shownLiteral := by
  unfold Value.shownLiteral
  split
  all_goals simp

namespace Host

/-! ## Numbers -/

theorem realOfInt_hostOnly (number : Int) : HostOnly (realOfInt number) := by
  unfold realOfInt
  split
  all_goals simp

theorem realOf_hostOnly (number : Numeric) : HostOnly (realOf number) := by
  cases number with
  | int value => exact realOfInt_hostOnly value
  | real value => exact .ok value

theorem wholePart_hostOnly (number : Numeric) : HostOnly (wholePart number) := by
  unfold wholePart
  split
  all_goals simp

/-! ## Sequences -/

theorem repeatedText_hostOnly (content : String) (count : Int) :
    HostOnly (repeatedText content count) := by
  unfold repeatedText
  dsimp only
  repeat' split
  all_goals simp

theorem checkKey_hostOnly (value : Value) : HostOnly (checkKey value) := by
  unfold checkKey
  split
  all_goals simp

theorem indexFailure_isSome (what : String) (index : Int) :
    (indexFailure what index).kind?.isSome = true := by
  unfold indexFailure
  split
  all_goals simp

theorem noKey_isSome (key : Value) : (noKey key).kind?.isSome = true := by
  unfold noKey
  split
  all_goals simp

theorem noItems_isSome (value : Value) : (noItems value).kind?.isSome = true := by
  unfold noItems
  split
  all_goals simp

theorem sliceBound_hostOnly (bound : Value) : HostOnly (sliceBound bound) := by
  unfold sliceBound
  repeat' split
  all_goals simp

theorem sliceBounds_hostOnly (start stop step : Value) :
    HostOnly (sliceBounds start stop step) := by
  unfold sliceBounds
  refine .bind (sliceBound_hostOnly step) fun size _ => ?_
  dsimp only
  split
  · exact .throw_bind rfl
  · refine .bind (sliceBound_hostOnly start) fun first _ => ?_
    exact .bind (sliceBound_hostOnly stop) fun last _ => .pure _

theorem lengthOf_hostOnly (value : Value) : HostOnly (lengthOf value) := by
  unfold lengthOf
  repeat' split
  all_goals simp

theorem checkRoom_hostOnly (value : Value) : HostOnly (checkRoom value) := by
  unfold checkRoom
  repeat' split
  all_goals simp

theorem contains_hostOnly (value container : Value) : HostOnly (contains value container) := by
  unfold contains
  split
  · exact .ok _
  · exact .ok _
  · exact .ok _
  · exact .bind (checkKey_hostOnly value) fun _ _ => .pure _
  · exact .bind (checkKey_hostOnly value) fun _ _ => .pure _
  · exact .bind (checkKey_hostOnly value) fun _ _ => .pure _
  · exact .ok _
  · split
    all_goals simp
  · repeat' split
    all_goals simp

/-! ## Patterns -/

namespace Pattern

theorem takeValue_hostOnly (values : List Value) : HostOnly (takeValue values) := by
  unfold takeValue
  split
  all_goals simp

theorem readSize_hostOnly (pattern : List Char) (values : List Value) :
    HostOnly (readSize pattern values) := by
  unfold readSize
  split
  · refine .bind (takeValue_hostOnly values) fun _ _ => ?_
    dsimp only
    split
    all_goals simp
  · dsimp only
    split
    all_goals simp

theorem readPrecision_hostOnly (pattern : List Char) (values : List Value) :
    HostOnly (readPrecision pattern values) := by
  unfold readPrecision
  split
  · exact .bind (readSize_hostOnly _ values) fun _ _ => .pure _
  · exact .ok _

theorem readGap_hostOnly (pattern : List Char) (values : List Value) :
    HostOnly (readGap pattern values) := by
  unfold readGap
  refine .bind (readSize_hostOnly _ values) fun _ _ => ?_
  refine .bind (readPrecision_hostOnly _ _) fun _ _ => ?_
  dsimp only
  split
  all_goals simp

theorem integerIn_hostOnly (gap : Gap) (value : Value) : HostOnly (integerIn gap value) := by
  unfold integerIn numberFailure
  split
  · exact .ok _
  · split
    · exact wholePart_hostOnly _
    · simp
  · simp

theorem realIn_hostOnly (value : Value) : HostOnly (realIn value) := by
  unfold realIn
  split
  · exact realOf_hostOnly _
  · simp

theorem characterIn_hostOnly (value : Value) : HostOnly (characterIn value) := by
  unfold characterIn
  repeat' split
  all_goals simp

theorem checkWidth_hostOnly (width : Nat) : HostOnly (checkWidth width) := by
  unfold checkWidth
  split
  all_goals simp

theorem write_hostOnly (gap : Gap) (value : Value) (place : Nat) :
    HostOnly (write gap value place) := by
  unfold write
  split
  · exact .bind (shown_hostOnly value) fun _ _ => .pure _
  · exact .bind (shownLiteral_hostOnly value) fun _ _ => .pure _
  · exact .bind (shownLiteral_hostOnly value) fun _ _ => .pure _
  · exact (characterIn_hostOnly value).map
  · split
    · refine .bind (integerIn_hostOnly gap value) fun number _ => ?_
      dsimp only
      split
      · exact .throw_bind rfl
      · exact .bind (checkWidth_hostOnly _) fun _ _ => .pure _
    · split
      · refine .bind (realIn_hostOnly value) fun number _ => ?_
        exact .bind (checkWidth_hostOnly _) fun _ _ => .pure _
      · simp

theorem keyed_hostOnly {lookup : String → Except Failure Value}
    (each : ∀ key, HostOnly (lookup key)) (values : List Value) (pattern : List Char) :
    HostOnly (keyed lookup values pattern) := by
  unfold keyed
  split
  · split
    · exact .bind (each _) fun _ _ => .pure _
    · simp
  · exact .ok _

theorem fillRest_hostOnly {length : Nat} {lookup : String → Except Failure Value}
    (each : ∀ key, HostOnly (lookup key)) (fuel : Nat) (pattern : List Char)
    (values : List Value) : HostOnly (fillRest length lookup fuel pattern values) := by
  fun_induction fillRest length lookup fuel pattern values with
  | case1 => exact .ok _
  | case2 => exact .ok _
  | case3 _ _ _ ih | case5 _ _ _ _ _ _ ih => exact .bind ih fun _ _ => .pure _
  | case4 _ rest values _ ih =>
    refine .bind (keyed_hostOnly each values rest) fun _ _ => ?_
    refine .bind (readGap_hostOnly _ _) fun _ _ => ?_
    refine .bind (takeValue_hostOnly _) fun _ _ => ?_
    refine .bind (write_hostOnly _ _ _) fun _ _ => ?_
    refine .bind (checkWidth_hostOnly _) fun _ _ => ?_
    exact .bind (ih _ _) fun _ _ => .pure _

theorem fill_hostOnly {item : Value → Value → Except Failure Value}
    (each : ∀ object index, HostOnly (item object index)) (pattern : String) (value : Value) :
    HostOnly (fill item pattern value) := by
  have found : ∀ key : String, HostOnly (if isMapping value then item value (.text key)
      else .error (.pattern "format requires a mapping")) := by
    intro key
    split
    · exact each value (.text key)
    · simp
  unfold fill
  refine .bind (fillRest_hostOnly found _ _ _) fun _ _ => ?_
  dsimp only
  split
  all_goals simp

end Pattern

/-! ## Order -/

theorem plainOrdered_hostOnly (comparison : Comparison) (left right : Value) :
    HostOnly (plainOrdered comparison left right) := by
  unfold plainOrdered
  repeat' split
  all_goals simp

mutual

theorem ordered_hostOnly (comparison : Comparison) (left right : Value) :
    HostOnly (ordered comparison left right) := by
  rw [ordered.eq_def]
  split
  · exact orderedAll_hostOnly comparison _ _
  · exact orderedAll_hostOnly comparison _ _
  · exact orderedAll_hostOnly comparison _ _
  · exact orderedAll_hostOnly comparison _ _
  · exact orderedAll_hostOnly comparison _ _
  · split
    · exact .ok _
    · exact plainOrdered_hostOnly comparison left right

theorem orderedAll_hostOnly (comparison : Comparison) (lefts rights : List Value) :
    HostOnly (orderedAll comparison lefts rights) := by
  match lefts, rights with
  | [], _ => rw [orderedAll]; exact .ok _
  | _ :: _, [] => rw [orderedAll]; exact .ok _
  | left :: lefts, right :: rights =>
    rw [orderedAll]
    split
    · exact orderedAll_hostOnly comparison lefts rights
    · exact ordered_hostOnly comparison left right

end

theorem insertionPlace_hostOnly (value : Value) (items : Array Value) (fuel low high : Nat) :
    HostOnly (insertionPlace value items fuel low high) := by
  induction fuel generalizing low high with
  | zero => exact .ok _
  | succ fuel ih =>
    rw [insertionPlace]
    split
    · refine .bind (ordered_hostOnly _ _ _) fun _ _ => ?_
      split
      · exact ih _ _
      · exact ih _ _
    · exact .ok _

/-! ## Names and arguments -/

theorem consistsOf_hostOnly (inClass : Char → Bool) (method : String) (item : Value) :
    HostOnly (consistsOf inClass method item) := by
  unfold consistsOf
  split
  all_goals simp

theorem followsInName_hostOnly (item : Value) : HostOnly (followsInName item) := by
  unfold followsInName
  refine .bind (consistsOf_hostOnly _ _ item) fun _ _ => ?_
  split
  all_goals simp

theorem allM_hostOnly {items : List Value} {test : Value → Except Failure Bool}
    (each : ∀ item, HostOnly (test item)) : HostOnly (items.allM test) := by
  induction items with
  | nil => exact .pure _
  | cons item rest ih =>
    rw [List.allM]
    refine .bind (each item) fun passed _ => ?_
    cases passed with
    | true => exact ih
    | false => exact .pure _

theorem argumentFailure_hostOnly {α : Type} (text : String) :
    HostOnly (argumentFailure text : Except Failure α) :=
  FailsOnly.error_iff.mpr rfl

theorem checkSurplus_hostOnly (signature : Signature) (defaults given : Nat) :
    HostOnly (signature.checkSurplus defaults given) := by
  unfold Signature.checkSurplus
  dsimp only
  split
  · exact argumentFailure_hostOnly _
  · exact .ok _

theorem checkMissing_hostOnly (signature : Signature) (defaults : Nat)
    (bound : List (String × Value)) : HostOnly (signature.checkMissing defaults bound) := by
  unfold Signature.checkMissing
  dsimp only
  split
  · exact .ok _
  · exact argumentFailure_hostOnly _

/-! ## What is found among the values -/

theorem itemAt_returns (what : String) (items : List Value) (position : Int) :
    Returns (· ∈ items) (itemAt what items position) := by
  unfold itemAt
  split
  · next standing =>
    obtain ⟨place, -, there⟩ := Option.bind_eq_some_iff.mp standing
    exact List.mem_of_getElem? there
  · exact indexFailure_isSome what position

theorem copies_returns (items : List Value) (count : Int) :
    Returns (∀ item ∈ ·, item ∈ items) (copies items count) := by
  unfold copies
  split
  · simp
  · split
    · simp
    · intro item member
      obtain ⟨copy, copyMember, itemMember⟩ := List.mem_flatten.mp member
      rwa [List.eq_of_mem_replicate copyMember] at itemMember

theorem takeRun_returns (descending : Bool) (last : Value) (run values : List Value) :
    Returns (fun parts => ∀ item, item ∈ parts.1 ∨ item ∈ parts.2 → item ∈ run ∨ item ∈ values)
      (takeRun descending last run values) := by
  induction values generalizing last run with
  | nil => exact fun item => id
  | cons value rest ih =>
    rw [takeRun]
    refine (ordered_hostOnly _ _ _).endsIn.bind fun below _ => ?_
    split
    · refine (ih value (value :: run)).imp fun parts among item member => ?_
      have found := among item member
      rw [List.mem_cons] at found ⊢
      tauto
    · exact fun item => id

theorem insertSorted_returns (sorted : Array Value) (value : Value) :
    Returns (∀ item ∈ ·, item ∈ sorted ∨ item = value) (insertSorted sorted value) := by
  refine (insertionPlace_hostOnly value sorted _ _ _).endsIn.bind fun place _ item member => ?_
  have cut : ∀ {start stop : Nat}, item ∈ sorted.extract start stop → item ∈ sorted := by
    intro start stop inside
    obtain ⟨place, _, there⟩ := Array.mem_extract_iff_getElem.mp inside
    exact there ▸ Array.getElem_mem _
  rcases Array.mem_append.mp member with upToValue | behind
  · rcases Array.mem_append.mp upToValue with before | here
    · exact .inl (cut before)
    · exact .inr (Array.mem_singleton.mp here)
  · exact .inl (cut behind)

theorem sortValues_returns (values : List Value) :
    Returns (∀ item ∈ ·, item ∈ values) (sortValues values) := by
  unfold sortValues
  split
  · next first second rest =>
    refine (ordered_hostOnly _ _ _).endsIn.bind fun descending _ => ?_
    refine (takeRun_returns _ _ _ _).bind fun parts among => ?_
    have given : ∀ item, item ∈ parts.1 ∨ item ∈ parts.2 → item ∈ first :: second :: rest := by
      intro item member
      have found := among item member
      simp only [List.mem_cons, List.not_mem_nil, or_false] at found ⊢
      tauto
    dsimp only
    have start : ∀ item ∈ (if descending = true then parts.1 else parts.1.reverse).toArray,
        item ∈ first :: second :: rest := by
      intro item member
      refine given item (.inl ?_)
      split at member <;> simpa using member
    have inserted : Returns (∀ item ∈ ·, item ∈ first :: second :: rest)
        (parts.2.foldlM insertSorted
          (if descending = true then parts.1 else parts.1.reverse).toArray) := by
      refine .foldlM start fun item member before kept => ?_
      refine (insertSorted_returns before item).imp fun after among other inside => ?_
      rcases among other inside with old | rfl
      · exact kept other old
      · exact given other (.inr member)
    exact inserted.bind fun sorted kept item member => kept item (Array.mem_toList_iff.mp member)
  · exact fun item => id

theorem bindNamed_returns (signature : Signature) (bound named : List (String × Value)) :
    Returns (∀ entry ∈ ·, entry ∈ bound ∨ entry ∈ named) (signature.bindNamed bound named) := by
  induction named generalizing bound with
  | nil => exact fun entry => .inl
  | cons entry rest ih =>
    rw [Signature.bindNamed]
    split
    · exact EndsIn.error_iff.mpr rfl
    · split
      · exact EndsIn.error_iff.mpr rfl
      · refine (ih _).imp fun results among found member => ?_
        have given := among found member
        rw [List.mem_append, List.mem_singleton] at given
        rw [List.mem_cons]
        tauto

end Host

end TypedMarkup
