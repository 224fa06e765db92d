import Mathlib.Data.List.Forall2
import TypedMarkup.Proofs.Markup.Correspondence
import TypedMarkup.Proofs.Token.SelfContained

/-!
Contract: the layout between tokens says nothing.

Owns: the theorem that two texts are read alike if their outermost tokens have the same texts and
the same neighbours among them are adjacent. What stands between tokens that are not adjacent,
blanks and comments of any number, changes neither the unit nor an error, apart from places.

A token is read from its own text wherever that stands. So tokens with one text are one token put at
two places.
-/

namespace TypedMarkup

/-- Tokens with one text are alike apart from their places. -/
theorem alike_of_raw_eq {first second : String} {tokens others : Tokens} {token other : Token}
    (read : tokenize first = .ok tokens) (otherRead : tokenize second = .ok others)
    (member : token ∈ tokens.body) (otherMember : other ∈ others.body)
    (raws : token.raw = other.raw) :
    Token.Alike (fun _ => .origin) (fun _ => .origin) token other := by
  obtain ⟨layout, longest, -, rfl⟩ := tokenize_eq_ok.mp read
  obtain ⟨otherLayout, otherLongest, -, rfl⟩ := tokenize_eq_ok.mp otherRead
  obtain ⟨own, ownRead, moved⟩ := exists_own_token longest member
  obtain ⟨otherOwn, otherOwnRead, otherMoved⟩ := exists_own_token otherLongest otherMember
  rw [raws, otherOwnRead] at ownRead
  cases ownRead
  rw [← moved, ← otherMoved]
  exact Token.relocate_alike (Position.shifts_shift token.span.start)
    (Position.shifts_shift other.span.start) (fun _ => rfl) own

/-- Two texts whose outermost tokens have the same texts, with the same neighbours adjacent, are
read alike: both to units with one tree apart from places and one output type, or both to errors of
one kind with one message and one hint. The text of a token tells its sort. -/
theorem reading_ignores_layout {first second : String} {tokens others : Tokens}
    (read : tokenize first = .ok tokens) (otherRead : tokenize second = .ok others)
    (raws : tokens.body.map Token.raw = others.body.map Token.raw)
    (gaps : adjacency tokens.body = adjacency others.body) :
    Corresponds CompileError.SaysAlike
      (fun unit other => unit.root.unplaced = other.root.unplaced ∧
        unit.output.map Prod.fst = other.output.map Prod.fst)
      (Markup.parse first) (Markup.parse second) := by
  have paired : List.Forall₂ (fun token other => token.raw = other.raw) tokens.body
      others.body := by
    have texts : List.Forall₂ Eq (tokens.body.map Token.raw) (others.body.map Token.raw) := by
      rw [raws]
      exact List.forall₂_refl _
    exact List.forall₂_map_right_iff.mp (List.forall₂_map_left_iff.mp texts)
  obtain ⟨lengths, sameRaw⟩ := List.forall₂_iff_zip.mp paired
  have each : List.Forall₂ (Token.Alike (fun _ => .origin) fun _ => .origin) tokens.body
      others.body := by
    refine List.forall₂_iff_zip.mpr ⟨lengths, fun {token other} member => ?_⟩
    obtain ⟨here, there⟩ := List.of_mem_zip member
    exact alike_of_raw_eq read otherRead here there (sameRaw member)
  have alike : Cursor.Alike (fun _ => .origin) (fun _ => .origin)
      (.ofTokens first tokens) (.ofTokens second others) :=
    ⟨.nil, ⟨each, gaps⟩, rfl⟩
  have tokensRead : Markup.tokensOf first = .ok tokens := by rw [Markup.tokensOf, read]; rfl
  have othersRead : Markup.tokensOf second = .ok others := by rw [Markup.tokensOf, otherRead]; rfl
  unfold Markup.parse
  rw [tokensRead, othersRead]
  refine (Markup.Grammar.unit_alike alike).imp fun unit other same => ⟨?_, ?_⟩
  · rw [← unit.root.relocate_origin, ← other.root.relocate_origin]
    exact congrArg Markup.Source.root same
  · have named (found : Markup.Source) :
        (found.relocate fun _ => .origin).output.map Prod.fst = found.output.map Prod.fst := by
      rw [Markup.Source.relocate, Option.map_map]
      rfl
    rw [← named unit, ← named other, same]

def spacedTag : String := "<p a-b=1/>"

def remarkedTag : String := "<p # two\n  a-b=1/>"

theorem remarkedTag_is_read_alike :
    ∃ tokens others, tokenize spacedTag = .ok tokens ∧ tokenize remarkedTag = .ok others ∧
      tokens.body.map Token.raw = others.body.map Token.raw ∧
      adjacency tokens.body = adjacency others.body ∧
      Corresponds CompileError.SaysAlike
        (fun unit other => unit.root.unplaced = other.root.unplaced ∧
          unit.output.map Prod.fst = other.output.map Prod.fst)
        (Markup.parse spacedTag) (Markup.parse remarkedTag) := by
  have reads : yields (fun tokens => yields (fun others =>
      tokens.body.map Token.raw == others.body.map Token.raw &&
        adjacency tokens.body == adjacency others.body) (tokenize remarkedTag))
      (tokenize spacedTag) = true := by
    decide +kernel
  obtain ⟨tokens, read, otherReads⟩ := exists_of_yields reads
  obtain ⟨others, otherRead, same⟩ := exists_of_yields otherReads
  rw [Bool.and_eq_true, beq_iff_eq, beq_iff_eq] at same
  exact ⟨tokens, others, read, otherRead, same.1, same.2,
    reading_ignores_layout read otherRead same.1 same.2⟩

end TypedMarkup
