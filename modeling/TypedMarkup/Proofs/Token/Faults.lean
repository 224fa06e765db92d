import TypedMarkup.Proofs.Failing
import TypedMarkup.Proofs.Token.Losslessness

/-!
Contract: where lexical faults and tokens stand.

Owns: that a text which is not tokenized has its fault at one of its characters, on one line with
what follows, and `InOrder`, which says of tokens that their spans point into a text one behind the
other. So a span that covers tokens, from the first to the last of them, points into the text too.

The fault of a group without end stands at its opening bracket and is found last. The positions of
brackets are therefore carried along with the fault of the scan.
-/

namespace TypedMarkup

/-! ## Faults -/

namespace Scan

/-- A fault inside a quoted literal stands at a backslash, unless the literal has no end. -/
theorem content_fault {quote : Char} {text : List Char} {fault : Fault}
    (failed : content quote text = .error fault) :
    fault.cause = .unterminatedLiteral ∨ ∃ after, text = fault.before ++ '\\' :: after := by
  fun_induction content quote text generalizing fault with
  | case1 =>
    cases failed
    exact .inl rfl
  | case2 | case5 | case7 => cases failed
  | case3 character rest _ isBackslash cause _ =>
    cases failed
    exact .inr ⟨rest, by rw [eq_of_beq isBackslash]; rfl⟩
  | case4 character rest _ isBackslash piece escaped inner failedInside ih =>
    cases failed
    rcases ih failedInside with unended | ⟨after, split⟩
    · exact .inl unended
    · refine .inr ⟨after, ?_⟩
      rw [escape_written escaped, split]
      simp [Fault.behind]
  | case6 character rest _ _ inner failedInside ih =>
    cases failed
    rcases ih failedInside with unended | ⟨after, split⟩
    · exact .inl unended
    · exact .inr ⟨after, by rw [split]; rfl⟩

/-- A fault of a lexeme stands at its first character, or at a backslash in it. -/
theorem lexeme_fault {first : Char} {rest : List Char} {fault : Fault}
    (failed : lexeme first rest = .error fault) :
    fault.before = [] ∨ ∃ after, first :: rest = fault.before ++ '\\' :: after := by
  unfold lexeme at failed
  split at failed
  · cases failed
  · cases failed
  · split at failed
    · unfold literal at failed
      split at failed
      · next inner failedInside =>
        split at failed
        · cases failed
          exact .inl rfl
        · next ended =>
          cases failed
          rcases content_fault failedInside with unended | ⟨after, split⟩
          · exact absurd unended ended
          · exact .inr ⟨after, by rw [split]; rfl⟩
      · cases failed
    · split at failed
      · cases failed
      · split at failed
        · cases failed
        · split at failed
          · cases failed
          · split at failed
            · cases failed
              exact .inl rfl
            · cases failed
              exact .inl rfl

theorem Lexeme.span_token (found : Lexeme) (start : Position) :
    (found.token start).span = ⟨start, start.after found.written⟩ := by
  unfold Lexeme.token
  cases found.form <;> rfl

end Scan

/-- All that was scanned stands at characters of a text: the beginnings of tokens, and the fault. -/
structure Scanned.StandsIn (source : List Char) (scanned : Scanned) : Prop where
  tokens : ∀ token ∈ scanned.tokens, token.span.start.StandsAt source
  fault : ∀ fault, scanned.fault = some fault → fault.position.StandsAt source

theorem scanFrom_standsIn {source : List Char} (text before : List Char)
    (whole : source = before ++ text) :
    (scanFrom (Position.origin.after before) text).StandsIn source := by
  obtain ⟨gaps, ⟨layout, rfl⟩ | ⟨first, rest, split, notGap, notRemark⟩⟩ := exists_gaps text
  · rw [scanFrom_gaps, scanFrom_end (Scan.skipGap_ending layout _)]
    exact ⟨List.forall_mem_nil _, by simp⟩
  · have here : source = (before ++ gaps.flatMap Lexis.Gap.written) ++ first :: rest := by
      rw [whole, split, List.append_assoc]
    have sameLine : first ≠ '\n' := by
      rintro rfl
      cases notGap
    rw [split, scanFrom_gaps, ← Position.after_append]
    cases read : Scan.lexeme first rest with
    | error fault =>
      rw [scanFrom_step (Scan.skipGap_stops notGap notRemark _ _), read]
      refine ⟨List.forall_mem_nil _, ?_⟩
      rintro _ ⟨⟩
      rcases Scan.lexeme_fault read with atFirst | ⟨after, atBackslash⟩
      · refine ⟨_, first, rest, here, sameLine, ?_⟩
        rw [atFirst, Position.after_nil]
      · refine ⟨_, '\\', after, ?_, by decide, (Position.after_append _ _ _).symm⟩
        rw [here, atBackslash]
        exact (List.append_assoc _ _ _).symm
    | ok found =>
      have written := Scan.lexeme_written read
      have further : source =
          (before ++ gaps.flatMap Lexis.Gap.written ++ found.written) ++ found.rest := by
        rw [here, written]
        exact (List.append_assoc _ _ _).symm
      have restStands := scanFrom_standsIn found.rest _ further
      rw [scanFrom_lexeme notGap notRemark read, ← Position.after_append]
      refine ⟨?_, restStands.fault⟩
      intro token member
      rcases List.mem_cons.mp member with rfl | later
      · rw [found.span_token]
        exact ⟨_, first, rest, here, sameLine, rfl⟩
      · exact restStands.tokens token later
termination_by text.length
decreasing_by
  have shorter := Scan.lexeme_rest_length read
  rw [split, List.length_append, List.length_cons]
  omega

theorem nest_fault {source : List Char} {fault : Option LexicalFault} {opened : List OpenGroup}
    {current tokens : List Token} {found : LexicalFault}
    (faultStands : ∀ other, fault = some other → other.position.StandsAt source)
    (openedStand : ∀ group ∈ opened, group.start.StandsAt source)
    (tokensStand : ∀ token ∈ tokens, token.span.start.StandsAt source)
    (failed : nest source fault opened current tokens = .error found) :
    found.position.StandsAt source := by
  fun_induction nest source fault opened current tokens with
  | case1 opened current other there =>
    cases failed
    exact faultStands _ there
  | case2 current group outer =>
    cases failed
    exact openedStand group List.mem_cons_self
  | case3 => cases failed
  | case4 opened current rest delimiter span ih =>
    obtain ⟨here, further⟩ := List.forall_mem_cons.mp tokensStand
    exact ih (List.forall_mem_cons.mpr ⟨here, openedStand⟩) further failed
  | case5 | case7 =>
    cases failed
    exact tokensStand _ List.mem_cons_self
  | case6 current rest delimiter span group outer _ ih =>
    obtain ⟨-, outerStand⟩ := List.forall_mem_cons.mp openedStand
    obtain ⟨-, further⟩ := List.forall_mem_cons.mp tokensStand
    exact ih outerStand further failed
  | case8 opened current token rest _ _ ih =>
    obtain ⟨-, further⟩ := List.forall_mem_cons.mp tokensStand
    exact ih openedStand further failed

/-- The fault of a text stands at one of its characters. -/
theorem tokenize_fault {source : String} {fault : LexicalFault}
    (failed : tokenize source = .error fault) : fault.position.StandsAt source.toList := by
  have nested := map_eq_error.mp failed
  have scanned : (scan source.toList).StandsIn source.toList :=
    scanFrom_standsIn source.toList [] rfl
  exact nest_fault scanned.fault (List.forall_mem_nil _) scanned.tokens nested

/-! ## Tokens in order -/

/-- The spans of tokens point into a text, one behind the other. -/
structure InOrder (text : List Char) (tokens : List Token) : Prop where
  points : ∀ token ∈ tokens, token.span.PointsInto text
  ordered : tokens.Pairwise fun first second => first.span.stop.offset ≤ second.span.start.offset

namespace InOrder

variable {text : List Char} {first token : Token} {tokens some more : List Token}

theorem sublist (inOrder : InOrder text tokens) (part : some.Sublist tokens) :
    InOrder text some :=
  ⟨fun token member => inOrder.points token (part.subset member), inOrder.ordered.sublist part⟩

/-- From the first of several tokens to any of them is a span of the text. -/
theorem join (inOrder : InOrder text (first :: tokens)) (member : token ∈ first :: tokens) :
    (first.span.join token.span).PointsInto text := by
  have begins := inOrder.points first List.mem_cons_self
  have ends := inOrder.points token member
  refine ⟨?_, begins.start, ends.stop⟩
  rcases List.mem_cons.mp member with rfl | later
  · exact begins.forward
  · have behind := (List.pairwise_cons.mp inOrder.ordered).1 token later
    exact (begins.forward.trans behind).trans ends.forward

theorem left (inOrder : InOrder text (some ++ more)) : InOrder text some :=
  inOrder.sublist (List.sublist_append_left some more)

theorem right (inOrder : InOrder text (some ++ more)) : InOrder text more :=
  inOrder.sublist (List.sublist_append_right some more)

theorem tail (inOrder : InOrder text (first :: tokens)) : InOrder text tokens :=
  inOrder.sublist (List.sublist_cons_self first tokens)

end InOrder

/-- A span reaches from the first of some tokens to the last of them. -/
structure Span.Covers (span : Span) (tokens : List Token) : Prop where
  start : ∃ first, tokens.head? = some first ∧ span.start = first.span.start
  stop : ∃ last, tokens.getLast? = some last ∧ span.stop = last.span.stop

theorem Token.covers (token : Token) : token.span.Covers [token] :=
  ⟨⟨token, rfl, rfl⟩, token, rfl, rfl⟩

theorem Span.Covers.join {first last : Span} {tokens others : List Token}
    (covers : first.Covers tokens) (middle : List Token) (ends : last.Covers others) :
    (first.join last).Covers (tokens ++ (middle ++ others)) := by
  obtain ⟨⟨head, isHead, starts⟩, -⟩ := covers
  obtain ⟨-, final, isFinal, stops⟩ := ends
  refine ⟨⟨head, ?_, starts⟩, final, ?_, stops⟩
  · rw [List.head?_append, isHead]
    rfl
  · rw [List.getLast?_append, List.getLast?_append, isFinal]
    rfl

theorem Span.Covers.pointsInto {span : Span} {tokens : List Token} {text : List Char}
    (covers : span.Covers tokens) (inOrder : InOrder text tokens) : span.PointsInto text := by
  obtain ⟨⟨head, isHead, starts⟩, final, isFinal, stops⟩ := covers
  obtain ⟨rest, rfl⟩ := List.head?_eq_some_iff.mp isHead
  have whole := inOrder.join (List.mem_of_getLast? isFinal)
  have same : span = head.span.join final.span := by
    rw [Span.join, ← starts, ← stops]
  rwa [same]

theorem tokenize_inOrder {source : String} {tokens : Tokens}
    (read : tokenize source = .ok tokens) : InOrder source.toList tokens.toList := by
  obtain ⟨layout, -, written, rfl⟩ := tokenize_eq_ok.mp read
  have lossless := lossless_layout layout
  rw [written] at lossless
  refine ⟨?_, lossless.ordered⟩
  intro token member
  have placed := lossless.placed token member
  exact ⟨placed.forward, placed.start, placed.stop⟩

end TypedMarkup
