import TypedMarkup.Proofs.Host.Soundness

/-!
Contract: operations make safe values from safe ones.

Owns: one lemma for each operation on values, for binding arguments, and for the makers of texts and
words: it fails for reasons that lie in its values, or it returns something safe. None of them looks
at a term.
-/

namespace TypedMarkup

namespace Host

variable {items values : List Value} {operator : Operator} {name : String}
  {entries : List (Value × Value)}

theorem mem_of_mem_sliceItems {α : Type} {items : List α} {start stop : Option Int} {step : Int}
    {item : α} (member : item ∈ sliceItems items start stop step) : item ∈ items := by
  obtain ⟨place, -, there⟩ := List.mem_filterMap.mp member
  exact List.mem_toArray.mp (Array.mem_of_getElem? there)

end Host

variable [Endings]

/-! ## Collections -/

theorem insertDistinct_safe {value : Value} (safe : AllSafe values)
    (valueSafe : value.Safe) : AllSafe (insertDistinct values value) := by
  unfold insertDistinct
  split
  · exact safe
  · exact List.forall_mem_append.mpr ⟨safe, List.forall_mem_singleton.mpr valueSafe⟩

/-- All keys and values of a dictionary are safe. -/
def EntriesSafe (entries : List (Value × Value)) : Prop :=
  ∀ entry ∈ entries, entry.1.Safe ∧ entry.2.Safe

theorem entriesSafe_nil : EntriesSafe [] :=
  List.forall_mem_nil _

theorem putEntry_safe {key value : Value} (keySafe : key.Safe)
    (valueSafe : value.Safe) (safe : EntriesSafe entries) :
    EntriesSafe (putEntry key value entries) := by
  induction entries with
  | nil =>
    rintro entry member
    rw [putEntry, List.mem_singleton] at member
    rw [member]
    exact ⟨keySafe, valueSafe⟩
  | cons first rest ih =>
    obtain ⟨firstSafe, restSafe⟩ := List.forall_mem_cons.mp safe
    rw [putEntry]
    split
    · exact List.forall_mem_cons.mpr ⟨⟨firstSafe.1, valueSafe⟩, restSafe⟩
    · exact List.forall_mem_cons.mpr ⟨firstSafe, ih restSafe⟩

theorem safe_dict :
    (Value.dict entries).Safe ↔ EntriesSafe entries := by
  constructor
  · intro safe entry member
    exact ⟨safe.part (List.mem_append_left _ (List.mem_map_of_mem member)),
      safe.part (List.mem_append_right _ (List.mem_map_of_mem member))⟩
  · intro safe
    refine .of_parts trivial ?_
    intro part member
    rcases List.mem_append.mp member with inKeys | inValues
    · obtain ⟨entry, entryMember, rfl⟩ := List.mem_map.mp inKeys
      exact (safe entry entryMember).1
    · obtain ⟨entry, entryMember, rfl⟩ := List.mem_map.mp inValues
      exact (safe entry entryMember).2

theorem entry?_safe {key value : Value}
    (safe : EntriesSafe entries) (found : entry? entries key = some value) : value.Safe := by
  obtain ⟨entry, entryFound, rfl⟩ := Option.map_eq_some_iff.mp found
  exact (safe entry (List.mem_of_find?_eq_some entryFound)).2

theorem tupleItems?_safe {value : Value} (safe : value.Safe)
    (found : value.tupleItems? = some items) : AllSafe items := by
  unfold Value.tupleItems? at found
  split at found <;> cases found
  all_goals exact fun _ => safe.part

theorem setItems?_safe {value : Value} (safe : value.Safe)
    (found : value.setItems? = some items) : AllSafe items := by
  unfold Value.setItems? at found
  split at found <;> cases found
  all_goals exact fun _ => safe.part

namespace Host

attribute [local simp] Failure.kind? safe_text

@[local simp]
theorem safe_int (number : Int) : (Value.int number).Safe :=
  .of_none trivial rfl

@[local simp]
theorem safe_real (number : Binary64) : (Value.real number none).Safe :=
  .of_none trivial rfl

@[local simp]
theorem safe_range (start stop step : Int) : (Value.range start stop step).Safe :=
  .of_none trivial rfl

/-! ## Arithmetic -/

section

variable {left right value : Value}

theorem integerArithmetic_returns (operator : Operator) (left right : Int) :
    Returns Value.Safe (integerArithmetic operator left right) := by
  unfold integerArithmetic trueQuotient
  repeat' split
  all_goals simp

theorem realArithmetic_returns (operator : Operator) (left right : Binary64) :
    Returns Value.Safe (realArithmetic operator left right) := by
  unfold realArithmetic
  repeat' split
  all_goals simp

theorem numberArithmetic_returns (operator : Operator) (left right : Numeric) :
    Returns Value.Safe (numberArithmetic operator left right) := by
  unfold numberArithmetic
  split
  · exact integerArithmetic_returns operator _ _
  · refine (realOf_hostOnly _).endsIn.bind fun first _ => ?_
    exact (realOf_hostOnly _).endsIn.bind fun second _ => realArithmetic_returns operator _ _

theorem concatenate_returns (leftSafe : left.Safe) (rightSafe : right.Safe) :
    Returns Value.Safe (concatenate left right) := by
  unfold concatenate operandFailure
  split
  · split
    all_goals simp
  · split
    · exact Value.Safe.of_parts trivial (List.forall_mem_append.mpr
        ⟨fun _ member => leftSafe.part member, fun _ member => rightSafe.part member⟩)
    · simp
    · split
      · simp
      · next first firstFound =>
        split
        · next second secondFound =>
          exact Value.Safe.of_parts trivial (List.forall_mem_append.mpr
            ⟨tupleItems?_safe leftSafe firstFound, tupleItems?_safe rightSafe secondFound⟩)
        · simp

theorem repeater?_returns {repeated : Int → Except Failure Value} (safe : value.Safe)
    (found : repeater? value = some repeated) (count : Int) :
    Returns Value.Safe (repeated count) := by
  unfold repeater? at found
  split at found
  · cases found
    exact (repeatedText_hostOnly _ count).endsIn.map fun text _ => safe_text text
  · split at found
    · cases found
      refine (copies_returns _ count).map fun copied among => .of_parts trivial ?_
      exact fun item member => safe.part (among item member)
    · obtain ⟨items, itemsFound, rfl⟩ := Option.map_eq_some_iff.mp found
      refine (copies_returns items count).map fun copied among => .of_parts trivial ?_
      exact fun item member => tupleItems?_safe safe itemsFound item (among item member)

theorem repetition_returns (leftSafe : left.Safe) (rightSafe : right.Safe) :
    Returns Value.Safe (repetition left right) := by
  unfold repetition operandFailure
  split
  · next found =>
    split
    · exact repeater?_returns leftSafe found _
    · simp
  · next found =>
    split
    · exact repeater?_returns rightSafe found _
    · simp
  · simp

theorem difference_returns (leftSafe : left.Safe) :
    Returns Value.Safe (difference left right) := by
  unfold difference operandFailure
  split
  · next firstFound _ =>
    refine Value.Safe.of_parts trivial fun item member => ?_
    exact setItems?_safe leftSafe firstFound item
      (mem_of_mem_walkOrder (List.mem_filter.mp member).1)
  · simp

theorem negative_returns : Returns Value.Safe (negative value) := by
  unfold negative
  split
  all_goals simp

theorem positive_returns (safe : value.Safe) : Returns Value.Safe (positive value) := by
  unfold positive
  split
  all_goals simp [safe]

theorem absoluteOf_returns : Returns Value.Safe (absoluteOf value) := by
  unfold absoluteOf
  split
  all_goals simp

end

/-! ## Items, slices and attributes -/

section

variable {value result : Value}

theorem ofName?_safe {words : Vocabulary} {word : Member}
    (known : words ∈ Vocabulary.all) (found : words.ofName? name = some word) :
    (Value.member word).Safe :=
  safe_member known (List.mem_of_find?_eq_some found)

theorem subscript_returns (value index : Value) :
    Returns (fun result => value.Safe → result.Safe) (subscript value index) := by
  unfold subscript
  split
  · split
    · exact (itemAt_returns _ _ _).imp fun _ member safe => safe.part member
    · simp
  · refine (checkKey_hostOnly index).endsIn.bind fun _ _ => ?_
    split
    · next found => exact fun safe => entry?_safe (safe_dict.mp safe) found
    · exact noKey_isSome index
  · repeat' split
    all_goals simp
  · refine (checkKey_hostOnly index).endsIn.bind fun _ _ => ?_
    split
    · next found =>
      obtain ⟨content, -, named⟩ := Option.bind_eq_some_iff.mp found
      exact fun safe => ofName?_safe safe.wellMade named
    · exact noKey_isSome index
  · split
    · split
      · split
        · simp
        · exact indexFailure_isSome _ _
      · simp
    · split
      · next items found =>
        split
        · refine (itemAt_returns _ _ _).imp fun item member safe => ?_
          exact tupleItems?_safe safe found item member
        · simp
      · exact noItems_isSome _

theorem arithmetic_returns {left right : Value} (leftSafe : left.Safe) (rightSafe : right.Safe) :
    Returns Value.Safe (arithmetic operator left right) := by
  unfold arithmetic
  split
  · exact numberArithmetic_returns operator _ _
  · split
    · exact concatenate_returns leftSafe rightSafe
    · exact difference_returns leftSafe
    · exact repetition_returns leftSafe rightSafe
    · split
      · have items := fun object index => (subscript_returns object index).failsOnly
        refine (Pattern.fill_hostOnly items _ right).endsIn.bind fun filled _ => ?_
        rw [EndsIn.pure_iff]
        split
        · exact safe_text filled
        · exact leftSafe
      · simp [operandFailure]
    · simp [operandFailure]

theorem slice_returns (value start stop step : Value) :
    Returns (fun result => value.Safe → result.Safe) (slice value start stop step) := by
  have bounds := (sliceBounds_hostOnly start stop step).endsIn
  unfold slice
  dsimp only
  split
  · next items =>
    refine .map (bounds.bind fun _ _ => ?_) fun found (among : ∀ item ∈ found, item ∈ items) safe =>
      .of_parts trivial fun item member => safe.part (among item member)
    exact fun item member => mem_of_mem_sliceItems member
  · simp
  · simp
  · exact bounds.bind fun _ _ _ => safe_range _ _ _
  · split
    · exact (sliceBounds_hostOnly start stop step).bind (fun _ _ => .ok _) |>.endsIn.map
        fun _ _ _ => safe_text _
    · split
      · next items found =>
        refine .map (bounds.bind fun _ _ => ?_) fun cut (among : ∀ item ∈ cut, item ∈ items) safe =>
          .of_parts trivial fun item member => tupleItems?_safe safe found item (among item member)
        exact fun item member => mem_of_mem_sliceItems member
      · exact noItems_isSome _

theorem classMethod?_safe (found : classMethod? name = some result) :
    result.Safe := by
  obtain ⟨which, -, rfl⟩ := Option.map_eq_some_iff.mp found
  exact .of_none trivial rfl

theorem attribute?_safe (safe : value.Safe)
    (found : attribute? value name = some result) : result.Safe := by
  have methods : ∀ {content : String}, (textMethod? name).map (Value.method content) = some result →
      result.Safe := by
    intro content method
    obtain ⟨which, -, rfl⟩ := Option.map_eq_some_iff.mp method
    exact .of_none trivial rfl
  unfold attribute? at found
  split at found
  · exact safe.part (List.mem_map_of_mem (Table.mem_of_get? found))
  · next words =>
    rw [Option.orElse_eq_orElse, Option.orElse_eq_or] at found
    rcases Option.or_eq_some_iff.mp found with word | ⟨-, method⟩
    · obtain ⟨member, named, rfl⟩ := Option.map_eq_some_iff.mp word
      exact ofName?_safe safe.wellMade named
    · exact classMethod?_safe method
  · exact classMethod?_safe found
  · exact classMethod?_safe found
  · split at found
    · cases found
      exact safe_text _
    · split at found
      · cases found
        exact safe_text _
      · split at found
        · next other named =>
          cases found
          obtain ⟨words, known, among⟩ := Option.bind_eq_some_iff.mp named
          exact ofName?_safe (List.mem_of_find?_eq_some known) among
        · exact methods found
  · obtain ⟨content, -, method⟩ := Option.bind_eq_some_iff.mp found
    exact methods method

theorem readAttribute_returns (safe : value.Safe) :
    Returns Value.Safe (readAttribute value name) := by
  unfold readAttribute
  split
  · next found => exact attribute?_safe safe found
  · split
    all_goals simp

end

/-! ## Conversions -/

section

variable {value : Value}

theorem integerRead_returns (base : Nat) (value : Value) (reading : Number.IntegerReading) :
    Returns Value.Safe (integerRead base value reading) := by
  unfold integerRead
  split
  all_goals simp

theorem integerOf_returns : Returns Value.Safe (integerOf value) := by
  unfold integerOf
  split
  · exact (wholePart_hostOnly _).endsIn.map fun number _ => safe_int number
  · exact integerRead_returns 10 value _
  · simp

theorem integerInBase_returns {base : Value} : Returns Value.Safe (integerInBase value base) := by
  unfold integerInBase
  split
  · simp
  · split
    · simp
    · split
      · exact integerRead_returns _ value _
      · simp

theorem textOf_returns : Returns Value.Safe (textOf values) := by
  unfold textOf
  split
  · exact safe_text _
  · exact (shown_hostOnly _).endsIn.map fun shown _ => safe_text shown
  · repeat' split
    all_goals simp

theorem floatOf_returns (safe : value.Safe) : Returns Value.Safe (floatOf value) := by
  unfold floatOf
  split
  · exact safe
  · exact (realOfInt_hostOnly _).endsIn.map fun number _ => safe_real number
  · split
    all_goals simp
  · simp

theorem rangeOf_returns {bounds : List Value} : Returns Value.Safe (rangeOf bounds) := by
  refine (FailsOnly.mapM fun bound _ => ?_).endsIn.bind fun numbers _ => ?_
  · split
    all_goals simp
  · repeat' split
    all_goals simp

theorem joined_returns {separator : String} : Returns Value.Safe (joined separator items) := by
  refine (FailsOnly.mapM fun entry _ => ?_).endsIn.bind fun parts _ => safe_text _
  dsimp only
  split
  all_goals simp

theorem wordOf_returns {words : Vocabulary} (known : words ∈ Vocabulary.all) :
    Returns Value.Safe (wordOf words value) := by
  unfold wordOf
  split
  · next found =>
    obtain ⟨content, -, among⟩ := Option.bind_eq_some_iff.mp found
    exact safe_member known (List.mem_of_find?_eq_some among)
  · exact (shownLiteral_hostOnly value).endsIn.bind fun _ _ => EndsIn.throw_iff.mpr rfl

theorem checkNameItems_hostOnly (kind : CheckedText) (value : Value) :
    HostOnly (checkNameItems kind value) := by
  unfold checkNameItems
  dsimp only
  split
  · exact .throw_bind rfl
  · refine .bind (subscript_returns _ _).failsOnly fun first _ => ?_
    refine .bind (consistsOf_hostOnly _ _ first) fun _ _ => ?_
    split
    · exact .throw_bind rfl
    · refine .bind (slice_returns _ _ _ _).failsOnly fun rest _ => ?_
      refine .bind (allM_hostOnly followsInName_hostOnly) fun _ _ => ?_
      split
      all_goals simp

theorem checkedOf_returns {kind : CheckedText} : Returns Value.Safe (checkedOf kind value) := by
  have named : Returns (fun result => ∃ content, result = .checked kind content)
      (checkedOf kind value) := by
    unfold checkedOf
    split
    · split
      all_goals simp
    · refine (checkNameItems_hostOnly kind value).endsIn.bind fun _ _ => ?_
      exact (shown_hostOnly value).endsIn.bind fun shown _ => ⟨shown, rfl⟩
  refine named.and_eq.imp ?_
  rintro _ ⟨computed, content, rfl⟩
  exact .of_none ⟨value, computed⟩ rfl

end

/-! ## Arguments -/

theorem bind_returns (signature : Signature) (defaults positional : List Value)
    (named : List (String × Value)) :
    Returns (fun results => AllSafe defaults → AllSafe positional →
        (∀ entry ∈ named, entry.2.Safe) → ∀ entry ∈ results, entry.2.Safe)
      (signature.bind defaults positional named) := by
  refine (bindNamed_returns signature _ named).bind fun bound among => ?_
  refine (checkSurplus_hostOnly signature _ _).endsIn.bind fun _ _ => ?_
  refine (checkMissing_hostOnly signature _ bound).endsIn.bind fun _ _ => ?_
  intro defaultsSafe positionalSafe namedSafe entry member
  rcases List.mem_append.mp member with given | collected
  · rcases List.mem_append.mp given with inBound | filled
    · rcases among entry inBound with zipped | byName
      · exact positionalSafe entry.2 (List.of_mem_zip zipped).2
      · exact namedSafe entry byName
    · exact defaultsSafe entry.2 (List.of_mem_zip (List.mem_filter.mp filled).1).2
  · obtain ⟨name, -, rfl⟩ := List.mem_map.mp collected
    exact .of_parts trivial fun _ member => positionalSafe _ (List.mem_of_mem_drop member)

theorem makerArgument_hostOnly (name : String) (positional : List Value)
    (named : List (String × Value)) : HostOnly (makerArgument name positional named) :=
  (bind_returns _ _ _ _).failsOnly.map

end Host

end TypedMarkup
