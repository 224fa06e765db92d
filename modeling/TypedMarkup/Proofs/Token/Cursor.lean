import TypedMarkup.Token.Cursor

/-!
Contract: places in a token sequence.

Owns: `Cursor.past`, the place behind some tokens, `Cursor.Takes`, which tokens lead from one place
to another, and what reading a token finds and where it stops. Proofs about grammars say with these
which tokens are read and leave the cursor closed.
-/

namespace TypedMarkup

namespace Cursor

variable {character : Char} {span : Span}

/-- The place behind some tokens, with the rest ahead. -/
def past (cursor : Cursor) (tokens rest : List Token) : Cursor :=
  { cursor with passed := tokens.reverse ++ cursor.passed, ahead := rest }

section

variable {cursor : Cursor} {token : Token} {tokens between more rest : List Token}

@[simp] theorem past_ahead : (cursor.past tokens rest).ahead = rest := rfl

@[simp] theorem past_past :
    (cursor.past tokens between).past more rest = cursor.past (tokens ++ more) rest := by
  simp [past]

theorem past_nil (ahead : cursor.ahead = rest) : cursor.past [] rest = cursor := by
  subst ahead
  rfl

theorem forward_eq_past (ahead : cursor.ahead = token :: rest) :
    cursor.forward = cursor.past [token] rest := by
  simp [forward, past, ahead]

theorem forward_forward_eq_past {second : Token} (ahead : cursor.ahead = token :: second :: rest) :
    cursor.forward.forward = cursor.past [token, second] rest := by
  rw [forward_eq_past ahead, forward_eq_past past_ahead, past_past]
  rfl

theorem current_eq (ahead : cursor.ahead = token :: rest) : cursor.current = token := by
  simp [current, peek, ahead]

/-- A token that is read next stands ahead, unless it is the end of the input. -/
theorem exists_ahead_of_current (found : cursor.current = token)
    (inside : ∀ position, token ≠ .endOfInput position) :
    ∃ rest, cursor.ahead = token :: rest := by
  cases begins : cursor.ahead with
  | nil =>
    have atEnd : cursor.current = .endOfInput cursor.stop := by simp [current, peek, begins]
    exact absurd (found.symm.trans atEnd) (inside cursor.stop)
  | cons first rest => exact ⟨rest, by rw [← found, current_eq begins]⟩

theorem atMark_succ {offset : Nat} :
    cursor.atMark character (offset + 1) = cursor.forward.atMark character offset := by
  cases ahead : cursor.ahead <;> simp [atMark, peek, forward, ahead]

/-! ## Tokens that are read -/

/-- Reading leads from a place over some tokens to another. -/
def Takes (cursor : Cursor) (tokens : List Token) (behind : Cursor) : Prop :=
  cursor.ahead = tokens ++ behind.ahead ∧ behind = cursor.past tokens behind.ahead

variable {middle behind : Cursor}

theorem takes_nil (cursor : Cursor) : cursor.Takes [] cursor := ⟨rfl, (past_nil rfl).symm⟩

theorem Takes.eq_of_nil (takes : cursor.Takes [] behind) : behind = cursor :=
  takes.2.trans (past_nil takes.1)

theorem Takes.trans (first : cursor.Takes tokens middle) (next : middle.Takes more behind) :
    cursor.Takes (tokens ++ more) behind := by
  refine ⟨?_, ?_⟩
  · rw [first.1, next.1, List.append_assoc]
  · rw [← past_past, ← first.2]
    exact next.2

theorem Takes.split (takes : cursor.Takes (tokens ++ more) behind) :
    ∃ middle, cursor.Takes tokens middle ∧ middle.Takes more behind := by
  refine ⟨cursor.past tokens (more ++ behind.ahead), ⟨?_, rfl⟩, rfl, ?_⟩
  · rw [takes.1, List.append_assoc, past_ahead]
  · rw [past_past]
    exact takes.2

theorem takes_of_ahead (ahead : cursor.ahead = token :: rest) :
    cursor.Takes [token] cursor.forward := by
  rw [forward_eq_past ahead]
  exact ⟨ahead, rfl⟩

theorem takes_two {second : Token} (ahead : cursor.ahead = token :: second :: rest) :
    cursor.Takes [token, second] cursor.forward.forward := by
  rw [forward_forward_eq_past ahead]
  exact ⟨ahead, rfl⟩

theorem takes_forward (found : cursor.current = token)
    (inside : ∀ position, token ≠ .endOfInput position) : cursor.Takes [token] cursor.forward := by
  obtain ⟨rest, ahead⟩ := exists_ahead_of_current found inside
  exact takes_of_ahead ahead

theorem Takes.head (takes : cursor.Takes (token :: tokens) behind) : cursor.current = token :=
  current_eq takes.1

theorem Takes.first (takes : cursor.Takes (token :: tokens) behind) :
    cursor.Takes [token] cursor.forward :=
  takes_of_ahead takes.1

theorem Takes.tail (takes : cursor.Takes (token :: tokens) behind) :
    cursor.forward.Takes tokens behind := by
  refine ⟨by rw [forward_eq_past takes.1]; rfl, ?_⟩
  rw [forward_eq_past takes.1, past_past]
  exact takes.2

theorem Takes.forward (takes : cursor.Takes [token] behind) : cursor.forward = behind :=
  takes.tail.eq_of_nil.symm

theorem Takes.source (takes : cursor.Takes tokens behind) : behind.source = cursor.source := by
  rw [takes.2]
  rfl

theorem Takes.previous (takes : cursor.Takes (tokens ++ [token]) behind) :
    behind.previous = token := by
  rw [takes.2]
  simp [Cursor.previous, past]

theorem Takes.atMark (takes : cursor.Takes (token :: tokens) behind) (character : Char) :
    cursor.atMark character 0 = token.isMark character := by
  rw [Cursor.atMark, ← takes.head]
  rfl

theorem Takes.atOwnMark (takes : cursor.Takes (.mark character span :: tokens) behind) :
    cursor.atMark character 0 = true :=
  (takes.atMark character).trans (beq_self_eq_true character)

theorem takes_of_atMark (found : cursor.atMark character 0 = true) :
    ∃ span, cursor.Takes [.mark character span] cursor.forward := by
  unfold Cursor.atMark Token.isMark at found
  split at found
  · next mark span same =>
    cases eq_of_beq found
    exact ⟨span, takes_forward same (by simp)⟩
  · cases found

theorem atMarks_iff {other : Char} :
    (cursor.atMark character 0 && cursor.atMark other 1) = true ↔
      ∃ first second, cursor.Takes [.mark character first, .mark other second]
        cursor.forward.forward := by
  rw [Bool.and_eq_true, atMark_succ]
  constructor
  · rintro ⟨atFirst, atSecond⟩
    obtain ⟨first, firstTakes⟩ := takes_of_atMark atFirst
    obtain ⟨second, secondTakes⟩ := takes_of_atMark atSecond
    exact ⟨first, second, firstTakes.trans secondTakes⟩
  · rintro ⟨first, second, takes⟩
    exact ⟨takes.atOwnMark, takes.tail.atOwnMark⟩

theorem expectMark_eq_ok {expected : List String} :
    cursor.expectMark character expected = .ok (token, behind) ↔
      ∃ span, token = .mark character span ∧ cursor.Takes [.mark character span] behind := by
  unfold expectMark
  constructor
  · intro read
    split at read
    · next found =>
      obtain ⟨span, takes⟩ := takes_of_atMark found
      cases read
      exact ⟨span, takes.head, takes⟩
    · cases read
  · rintro ⟨span, rfl, takes⟩
    rw [if_pos takes.atOwnMark, takes.head, takes.forward]

theorem expectIdentifier_eq_ok {name : String} {expected : List String} :
    cursor.expectIdentifier expected = .ok (name, span, behind) ↔
      cursor.Takes [.identifier name span] behind := by
  unfold expectIdentifier
  constructor
  · intro read
    split at read
    · next found =>
      cases read
      exact takes_forward found (by simp)
    · cases read
  · intro takes
    rw [takes.head, takes.forward]

end

end Cursor

end TypedMarkup
