import TypedMarkup.Markup.Capture

/-!
Contract: which colons of a group are written as points.

Owns: `PathPair`, the rule by which two colons join a path, read off the token sequences of a group
without an order of visiting them, and that `Capture.separatorsIn` collects the places of these
pairs. Also `Replaced`, what it means to write points for the pairs of a text and to leave all
else as it is, and that `Capture.writePoints` does it.

A group is looked at by itself: nothing stands before it, so it is no subscript. The groups inside
it are told by the token before them.
-/

namespace TypedMarkup.Capture

variable {subscript : Bool} {before inner after : List Token} {delimiter : Delimiter} {raw : String}
  {span : Span}

/-! ## Pairs of colons -/

/-- A token behind which a bracket is a subscript: something that has a value. -/
def HasValue : Token → Prop
  | .identifier name _ => Host.isReservedWord name = false
  | .group delimiter _ _ _ => delimiter ≠ .brace
  | .number _ _ => True
  | .quoted _ _ _ => True
  | _ => False

/-- A group behind these tokens is a subscript. -/
def Subscribes (before : List Token) (delimiter : Delimiter) : Prop :=
  delimiter = .bracket ∧ ∃ last, before.getLast? = some last ∧ HasValue last

/-- The token sequences inside a group with the given tokens: these, and those of the groups among
them at every depth. The flag says whether a sequence is the content of a subscript. -/
inductive Sequence (tokens : List Token) : (subscript : Bool) → List Token → Prop where
  | own : Sequence tokens false tokens
  | grouped {subscript : Bool} {before inner after : List Token} {delimiter : Delimiter}
      {raw : String} {span : Span}
      (outer : Sequence tokens subscript (before ++ .group delimiter raw inner span :: after))
      (plain : ¬ Subscribes before delimiter) : Sequence tokens false inner
  | subscribed {subscript : Bool} {before inner after : List Token} {delimiter : Delimiter}
      {raw : String} {span : Span}
      (outer : Sequence tokens subscript (before ++ .group delimiter raw inner span :: after))
      (subscribes : Subscribes before delimiter) : Sequence tokens true inner

/-- Two colons that join a path, by the place of the first one: they touch, an identifier stands
directly before them and another one behind them, and they are not the content of a subscript. -/
inductive PathPair (tokens : List Token) : (offset : Nat) → Prop where
  | joins {before after : List Token} {head member : String}
      {headSpan first second memberSpan : Span}
      (sequence : Sequence tokens false (before ++ .identifier head headSpan ::
        .mark ':' first :: .mark ':' second :: .identifier member memberSpan :: after))
      (directly : headSpan.stop.offset = first.start.offset)
      (touching : first.stop.offset = second.start.offset) : PathPair tokens first.start.offset

theorem isSubscript_iff :
    isSubscript before.getLast? (.group delimiter raw inner span) = true ↔
      Subscribes before delimiter := by
  unfold isSubscript Subscribes
  rw [Bool.and_eq_true, Token.isGroup, beq_iff_eq]
  refine and_congr_right fun _ => ?_
  cases before.getLast? with
  | none => simp
  | some last => cases last <;> simp [HasValue]

theorem joinsPath_iff {before : Option Token} {token : Token} :
    joinsPath before token after = true ↔
      ∃ head headSpan first second member memberSpan more,
        before = some (.identifier head headSpan) ∧ token = .mark ':' first ∧
        after = .mark ':' second :: .identifier member memberSpan :: more ∧
        headSpan.stop.offset = first.start.offset ∧ first.stop.offset = second.start.offset := by
  constructor
  · intro joins
    unfold joinsPath at joins
    split at joins
    · rw [Bool.and_eq_true, beq_iff_eq, beq_iff_eq] at joins
      exact ⟨_, _, _, _, _, _, _, rfl, rfl, rfl, joins.1, joins.2⟩
    · cases joins
  · rintro ⟨head, headSpan, first, second, member, memberSpan, more, rfl, rfl, rfl, directly,
      touching⟩
    simp [joinsPath, directly, touching]

/-! ## Collecting the pairs -/

section

variable {tokens : List Token} {offset : Nat}

theorem Sequence.inside
    (outer : Sequence tokens subscript (before ++ .group delimiter raw inner span :: after)) :
    Sequence tokens (isSubscript before.getLast? (.group delimiter raw inner span)) inner := by
  cases subscribes : isSubscript before.getLast? (.group delimiter raw inner span) with
  | true => exact .subscribed outer (isSubscript_iff.mp subscribes)
  | false =>
    refine .grouped outer fun claimed => ?_
    rw [isSubscript_iff.mpr claimed] at subscribes
    cases subscribes

theorem mem_separatorsOf {token : Token} (collected : offset ∈ separatorsOf subscript token) :
    ∃ delimiter raw inner span, token = .group delimiter raw inner span ∧
      offset ∈ separatorsIn subscript none inner := by
  cases token with
  | group delimiter raw inner span =>
    rw [separatorsOf] at collected
    exact ⟨delimiter, raw, inner, span, rfl, collected⟩
  | _ => simp [separatorsOf] at collected

/-- What is collected from a part of a sequence is a pair. -/
theorem pathPair_of_mem {subscript : Bool} (before rest : List Token)
    (sequence : Sequence tokens subscript (before ++ rest))
    (collected : offset ∈ separatorsIn subscript before.getLast? rest) :
    PathPair tokens offset := by
  match rest with
  | [] => simp [separatorsIn] at collected
  | token :: after =>
    rw [separatorsIn] at collected
    rcases List.mem_append.mp collected with here | later
    · split at here
      · next joins =>
        rw [Bool.and_eq_true, Bool.not_eq_true'] at joins
        obtain ⟨outside, joins⟩ := joins
        obtain ⟨head, headSpan, first, second, member, memberSpan, more, last, rfl, rfl,
          directly, touching⟩ := joinsPath_iff.mp joins
        obtain ⟨front, rfl⟩ := List.getLast?_eq_some_iff.mp last
        subst outside
        rw [List.append_assoc] at sequence
        cases List.mem_singleton.mp here
        exact .joins sequence directly touching
      · obtain ⟨delimiter, raw, inner, span, rfl, inside⟩ := mem_separatorsOf here
        exact pathPair_of_mem [] inner sequence.inside inside
    -- On the same level, the token joins those that stand before the rest.
    · have behind : (before ++ [token]).getLast? = some token := List.getLast?_concat
      rw [← behind] at later
      rw [← List.singleton_append, ← List.append_assoc] at sequence
      exact pathPair_of_mem (before ++ [token]) after sequence later
termination_by sizeOf rest

/-- What is collected behind some tokens is collected from the whole sequence. -/
theorem mem_separatorsIn_append (before front : List Token) {rest : List Token}
    (collected : offset ∈ separatorsIn subscript (before ++ front).getLast? rest) :
    offset ∈ separatorsIn subscript before.getLast? (front ++ rest) := by
  induction front generalizing before with
  | nil =>
    rw [List.append_nil] at collected
    exact collected
  | cons token more ih =>
    rw [List.cons_append, separatorsIn]
    refine List.mem_append_right _ ?_
    rw [← List.getLast?_concat (l := before)]
    apply ih (before ++ [token])
    rwa [List.append_assoc, List.singleton_append]

theorem mem_separatorsIn_group (collected : offset ∈ separatorsIn
      (isSubscript before.getLast? (.group delimiter raw inner span)) none inner) :
    offset ∈ separatorsIn subscript none (before ++ .group delimiter raw inner span :: after) := by
  refine mem_separatorsIn_append [] before ?_
  rw [List.nil_append, separatorsIn]
  refine List.mem_append_left _ ?_
  have noMark : joinsPath before.getLast? (.group delimiter raw inner span) after = false := by
    simp [joinsPath]
  rw [noMark, Bool.and_false, if_neg Bool.false_ne_true, separatorsOf]
  exact collected

/-- What is collected from a sequence inside a group is collected from the group. -/
theorem Sequence.mem_separatorsIn {level : List Token} (sequence : Sequence tokens subscript level)
    (collected : offset ∈ separatorsIn subscript none level) :
    offset ∈ separatorsIn false none tokens := by
  induction sequence with
  | own => exact collected
  | grouped outer plain ih =>
    refine ih (mem_separatorsIn_group ?_)
    rwa [Bool.eq_false_iff.mpr fun claimed => plain (isSubscript_iff.mp claimed)]
  | subscribed outer subscribes ih =>
    refine ih (mem_separatorsIn_group ?_)
    rwa [isSubscript_iff.mpr subscribes]

/-- The places collected from the tokens of a group are those of its pairs. -/
theorem mem_separatorsIn_iff :
    offset ∈ separatorsIn false none tokens ↔ PathPair tokens offset := by
  constructor
  · exact pathPair_of_mem [] tokens .own
  · rintro @⟨before, after, head, member, headSpan, first, second, memberSpan, sequence, directly,
      touching⟩
    refine sequence.mem_separatorsIn (mem_separatorsIn_append [] before ?_)
    rw [separatorsIn]
    refine List.mem_append_right _ ?_
    have joins : joinsPath (some (.identifier head headSpan)) (.mark ':' first)
        (.mark ':' second :: .identifier member memberSpan :: after) = true :=
      joinsPath_iff.mpr ⟨_, _, _, _, _, _, _, rfl, rfl, rfl, directly, touching⟩
    rw [separatorsIn, joins]
    exact List.mem_append_left _ (List.mem_singleton.mpr rfl)

end

/-! ## Writing points -/

/-- In the second text a point stands for each pair of colons of the first, and all else is the
same. The first text begins at an offset. -/
inductive Replaced (isPair : Nat → Prop) : (offset : Nat) → List Char → List Char → Prop where
  | nil {offset : Nat} : Replaced isPair offset [] []
  | pair {offset : Nat} {rest written : List Char} (here : isPair offset)
      (further : Replaced isPair (offset + 2) rest written) :
      Replaced isPair offset (':' :: ':' :: rest) ('.' :: written)
  | same {offset : Nat} {character : Char} {rest written : List Char} (none : ¬ isPair offset)
      (further : Replaced isPair (offset + 1) rest written) :
      Replaced isPair offset (character :: rest) (character :: written)

namespace Replaced

variable {isPair : Nat → Prop} {offset : Nat} {text written more moreWritten : List Char}

theorem append (first : Replaced isPair offset text written)
    (second : Replaced isPair (offset + text.length) more moreWritten) :
    Replaced isPair offset (text ++ more) (written ++ moreWritten) := by
  induction first with
  | nil => exact second
  | pair here _ ih =>
    refine .pair here (ih ?_)
    rwa [List.length_cons, List.length_cons, Nat.add_comm _ 1, Nat.add_comm _ 1, ← Nat.add_assoc,
      ← Nat.add_assoc] at second
  | same none _ ih =>
    refine .same none (ih ?_)
    rwa [List.length_cons, Nat.add_comm _ 1, ← Nat.add_assoc] at second

theorem refl (text : List Char)
    (none : ∀ place, offset ≤ place → place < offset + text.length → ¬ isPair place) :
    Replaced isPair offset text text := by
  induction text generalizing offset with
  | nil => exact .nil
  | cons character rest ih =>
    rw [List.length_cons] at none
    refine .same (none offset (Nat.le_refl _) (by omega)) (ih ?_)
    intro place begins ends
    exact none place (by omega) (by omega)

theorem writePoints_eq {separators : List Nat}
    (replaced : Replaced (· ∈ separators) offset text written) :
    writePoints separators offset text = written := by
  induction replaced with
  | nil => rfl
  | pair here _ ih =>
    rw [writePoints, if_pos (List.contains_iff_mem.mpr here), ih]
  | @same offset character rest written none further ih =>
    cases rest with
    | nil =>
      cases further
      rfl
    | cons second rest =>
      rw [writePoints, if_neg (by simpa using none), ih]

end Replaced

end TypedMarkup.Capture
