import TypedMarkup.Host.Evaluate
import TypedMarkup.Proofs.Schema.Coercion

/-!
Contract: the texts that are language tags.

Owns: `IsTag`, the syntax of a language tag, and the theorem that the check accepts the tags and the
lines that consist of one, and nothing else, wherever a text becomes a language tag.

Does not own: which tags are registered.
-/

namespace TypedMarkup

/-- One to eight characters of a class. -/
def IsPart (allowed : Char → Bool) (part : List Char) : Prop :=
  part ≠ [] ∧ part.length ≤ 8 ∧ ∀ character ∈ part, allowed character = true

/-- Letters, then parts of letters and digits, each behind a dash. -/
def IsTag (text : List Char) : Prop :=
  ∃ (first : List Char) (rest : List (List Char)), text = first ++ rest.flatMap ('-' :: ·) ∧
    IsPart Char.isAlpha first ∧ ∀ part ∈ rest, IsPart Char.isAlphanum part

section

variable {allowed : Char → Bool} {text part begun : List Char}

theorem isTagPart_iff : isTagPart allowed part = true ↔ IsPart allowed part := by
  rw [isTagPart, IsPart, Bool.and_eq_true, Bool.and_eq_true, decide_eq_true_eq, decide_eq_true_eq,
    List.all_eq_true, and_assoc, Nat.one_le_iff_ne_zero, Ne, List.length_eq_zero_iff]

theorem IsPart.not_mem (isPart : IsPart allowed part) {character : Char}
    (refused : allowed character = false) : character ∉ part := by
  intro member
  rw [isPart.2.2 character member] at refused
  cases refused

theorem IsTag.lineFeed_not_mem (isTag : IsTag text) : '\n' ∉ text := by
  obtain ⟨first, rest, rfl, isFirst, areParts⟩ := isTag
  rw [List.mem_append, List.mem_flatMap]
  rintro (member | ⟨part, isPart, member⟩)
  · exact isFirst.not_mem rfl member
  · rcases List.mem_cons.mp member with never | among
    · cases never
    · exact (areParts part isPart).not_mem rfl among

/-! ## Parts -/

/-- The parts with dashes between them are the text. -/
theorem exists_dashParts (begun text : List Char) :
    ∃ first rest, dashParts begun text = first :: rest ∧
      begun ++ text = first ++ rest.flatMap ('-' :: ·) := by
  induction text generalizing begun with
  | nil => exact ⟨begun, [], rfl, rfl⟩
  | cons character more ih =>
    rw [dashParts]
    split
    · next isDash =>
      obtain ⟨first, rest, parts, joined⟩ := ih []
      refine ⟨begun, first :: rest, by rw [parts], ?_⟩
      rw [List.flatMap_cons, List.cons_append, ← joined, beq_iff_eq.mp isDash, List.nil_append]
    · obtain ⟨first, rest, parts, joined⟩ := ih (begun ++ [character])
      exact ⟨first, rest, parts, by rw [← joined, List.append_assoc, List.singleton_append]⟩

theorem dashParts_append (noDash : '-' ∉ part) (begun more : List Char) :
    dashParts begun (part ++ more) = dashParts (begun ++ part) more := by
  induction part generalizing begun with
  | nil => rw [List.nil_append, List.append_nil]
  | cons character others ih =>
    obtain ⟨notHere, notFurther⟩ := not_or.mp (mt List.mem_cons.mpr noDash)
    have other : ¬ (character == '-') = true := fun same => notHere (beq_iff_eq.mp same).symm
    rw [List.cons_append, dashParts, if_neg other, ih notFurther, List.append_assoc,
      List.singleton_append]

theorem dashParts_flatMap {parts : List (List Char)} (noDash : ∀ part ∈ parts, '-' ∉ part)
    (begun : List Char) : dashParts begun (parts.flatMap ('-' :: ·)) = begun :: parts := by
  induction parts generalizing begun with
  | nil => rfl
  | cons part others ih =>
    obtain ⟨notHere, notFurther⟩ := List.forall_mem_cons.mp noDash
    rw [List.flatMap_cons, List.cons_append, dashParts, if_pos (beq_self_eq_true '-'),
      dashParts_append notHere, ih notFurther, List.nil_append]

/-! ## Tags -/

theorem isTag_iff :
    IsTag text ↔ ∃ first rest, dashParts [] text = first :: rest ∧
      isTagPart Char.isAlpha first = true ∧ rest.all (isTagPart Char.isAlphanum) = true := by
  simp only [List.all_eq_true, isTagPart_iff]
  constructor
  · rintro ⟨first, rest, rfl, isFirst, areParts⟩
    refine ⟨first, rest, ?_, isFirst, areParts⟩
    rw [dashParts_append (isFirst.not_mem rfl),
      dashParts_flatMap fun part isPart => (areParts part isPart).not_mem rfl, List.nil_append]
  · rintro ⟨first, rest, parts, isFirst, areParts⟩
    obtain ⟨_, _, same, joined⟩ := exists_dashParts [] text
    rw [parts] at same
    cases same
    exact ⟨first, rest, joined, isFirst, areParts⟩

theorem isTag_withoutFinalLineFeed :
    IsTag (withoutFinalLineFeed text) ↔ IsTag text ∨ ∃ tag, IsTag tag ∧ text = tag ++ ['\n'] := by
  rw [withoutFinalLineFeed]
  split
  · next ends =>
    obtain ⟨tag, rfl⟩ := List.getLast?_eq_some_iff.mp (beq_iff_eq.mp ends)
    rw [List.dropLast_concat]
    constructor
    · exact fun isTag => .inr ⟨tag, isTag, rfl⟩
    · rintro (never | ⟨_, isTag, same⟩)
      · exact absurd List.mem_concat_self never.lineFeed_not_mem
      · rwa [List.append_cancel_right same]
  · next endsNot =>
    refine ⟨.inl, ?_⟩
    rintro (isTag | ⟨tag, -, rfl⟩)
    · exact isTag
    · exact absurd (beq_iff_eq.mpr List.getLast?_concat) endsNot

end

theorem isLanguageTag_iff {text : String} :
    isLanguageTag text = true ↔
      IsTag text.toList ∨ ∃ tag, IsTag tag ∧ text.toList = tag ++ ['\n'] := by
  rw [← isTag_withoutFinalLineFeed, isTag_iff, isLanguageTag]
  obtain ⟨first, rest, parts, -⟩ := exists_dashParts [] (withoutFinalLineFeed text.toList)
  simp only [parts, Bool.and_eq_true, List.cons.injEq, and_assoc, exists_eq_left', exists_and_left]

section

variable {kind : CheckedText} {given : Value} {content : String}

theorem checkedOf_of_content? (isText : given.content? = some content) :
    Host.checkedOf kind given = (AttributeType.checked kind).parseContent content := by
  rw [AttributeType.parseContent, AttributeType.parse, Host.checkedOf, isText]
  dsimp only
  cases kind.check content <;> rfl

theorem coerce_checked_of_content? (isText : given.content? = some content)
    (other : given ≠ .checked kind content) :
    (AttributeType.checked kind).coerce given =
      liftM ((AttributeType.checked kind).parseContent content) := by
  rw [AttributeType.coerce.eq_def]
  dsimp only
  split
  · cases isText
    rw [if_neg]
    rintro rfl
    exact other rfl
  · rw [isText]

end

/-- Wherever a text is made a language tag, it has to be one, or a line that consists of one; all
other texts are rejected. -/
theorem language_tags_are_tags_or_lines (text : String) (given : Value)
    (isText : given.content? = some text) (other : given ≠ .checked .languageTag text)
    (memory : Host.Memory) :
    let type := AttributeType.checked .languageTag
    let tag := Value.checked .languageTag text
    (IsTag text.toList ∨ (∃ tag, IsTag tag ∧ text.toList = tag ++ ['\n']) →
      Host.checkedOf .languageTag given = .ok tag ∧ type.parse text = .ok tag ∧
        (type.coerce given).run memory = .ok (tag, memory)) ∧
    (¬ (IsTag text.toList ∨ ∃ tag, IsTag tag ∧ text.toList = tag ++ ['\n']) →
      Host.checkedOf .languageTag given = .error (.rejected (.notLanguageTag text)) ∧
        type.parse text = .error (.notLanguageTag text) ∧
        (type.coerce given).run memory = .error (.rejected (.notLanguageTag text))) := by
  intro type tag
  rw [← isLanguageTag_iff, coerce_checked_of_content? isText other, checkedOf_of_content? isText]
  constructor
  · intro accepted
    have parsed : type.parse text = .ok tag := map_eq_ok.mpr ⟨(), if_pos accepted, rfl⟩
    exact ⟨mapError_eq_ok.mpr parsed, parsed, run_parseContent_eq_ok.mpr ⟨parsed, rfl⟩⟩
  · intro refused
    have checked : CheckedText.check .languageTag text = .error (.notLanguageTag text) :=
      if_neg refused
    have parsed : type.parse text = .error (.notLanguageTag text) := by
      rw [AttributeType.parse, checked]
      rfl
    rw [AttributeType.parseContent, parsed]
    exact ⟨rfl, rfl, rfl⟩

/-- A class name with three parts becomes a language tag. -/
theorem language_tags_are_tags_or_lines_of_class :
    IsTag "zh-Hant-419".toList ∧
      ((AttributeType.checked .languageTag).coerce (.checked .className "zh-Hant-419")).run
        (.start []) = .ok (.checked .languageTag "zh-Hant-419", .start []) := by
  have isTag : IsTag "zh-Hant-419".toList :=
    ⟨"zh".toList, ["Hant".toList, "419".toList], by decide, isTagPart_iff.mp (by decide),
      by simp only [← isTagPart_iff, ← List.all_eq_true]; decide⟩
  exact ⟨isTag, ((language_tags_are_tags_or_lines "zh-Hant-419" (.checked .className "zh-Hant-419")
    rfl (by rintro ⟨⟩) (.start [])).1 (.inl isTag)).2.2⟩

/-- A language tag with a line feed behind it is accepted, though it is not a tag. -/
theorem languageTag_accepts_final_lineFeed :
    (AttributeType.checked .languageTag).parse "en\n" = .ok (.checked .languageTag "en\n") ∧
      ¬ IsTag "en\n".toList :=
  ⟨rfl, fun isTag => isTag.lineFeed_not_mem (by decide)⟩

end TypedMarkup
