import TypedMarkup.Proofs.Schema.Solid

/-!
Contract: words of other vocabularies.

Owns: that a value with a word of another vocabulary in it cannot be fitted to a vocabulary, nor to
collections of its words, when the word is met as an item of the innermost type or its text is no
text of the vocabulary. What is left is a word in the place of a collection: it is a text there, and
is read as one.
-/

namespace TypedMarkup

open Host Text

namespace AttributeType

variable {type : AttributeType} {words : Vocabulary}

theorem textual_of_innermost (innermost : type.innermost = .vocabulary words) : type.Textual := by
  induction type with
  | vocabulary own => trivial
  | spaced container item ih => exact ih innermost
  | _ => cases innermost

theorem Known.innermost (known : type.Known) : type.innermost.Known := by
  induction type with
  | spaced container item ih => exact ih known
  | _ => exact known

/-- Collections around a vocabulary read a solid text just when it is the text of a word. -/
theorem parse_solid_iff (innermost : type.innermost = .vocabulary words) {text : String}
    (solid : Solid text) :
    (∃ value, type.parse text = .ok value) ↔ words.ofText? text ≠ none := by
  induction type with
  | vocabulary own =>
    cases innermost
    rw [parse]
    cases words.ofText? text <;> simp
  | spaced container item ih =>
    rw [← ih innermost]
    constructor
    · rintro ⟨value, parsed⟩
      obtain ⟨found, here, -⟩ := (parse_spaced_of_solid solid).mp parsed
      exact ⟨found, here⟩
    · rintro ⟨found, here⟩
      exact ⟨_, (parse_spaced_of_solid solid).mpr ⟨found, here, rfl⟩⟩
  | _ => cases innermost

/-- Fitting goes through the whole value, so it comes to every word that the value contains. -/
theorem coerce_ne_ok_of_contains (innermost : type.innermost = .vocabulary words) {word : Member}
    (solid : Solid word.text) (foreign : word.vocabulary ≠ words.name) {value : Value}
    {memory : Memory} {level : Nat}
    (contained : Contains (.value value) memory level (.member word))
    (met : type.layers ≤ level ∨ words.ofText? word.text = none) {result : Value}
    {after : Memory} : (type.coerce value).run memory ≠ .ok (result, after) := by
  intro fitted
  induction type generalizing value memory level result after with
  | vocabulary own =>
    cases innermost
    obtain ⟨-, ⟨taken, rfl, named, -⟩ | ⟨noWord, content, found, -⟩⟩ :=
      coerce_vocabulary_eq_ok fitted
    · cases (contained.of_whole rfl).1
      exact foreign named
    · exact noWord word (contained.of_whole (isWhole_of_content? found)).1.symm
  | spaced container item ih =>
    rcases coerce_spaced_eq_ok fitted with
      ⟨content, found, -, parsed⟩ | ⟨course, begun, results, divided, opened, fittedAll, -⟩
    · -- A word in the place of a collection is read as a text.
      obtain ⟨rfl, rfl⟩ := contained.of_whole (isWhole_of_content? found)
      cases found
      have unknown : words.ofText? word.text = none :=
        met.resolve_left (Nat.not_succ_le_zero item.layers)
      exact (parse_solid_iff innermost solid).mp ⟨result, parsed⟩ unknown
    · cases contained with
      | self => cases divided
      | part _ otherOpened inside =>
        obtain ⟨rfl, rfl⟩ := opened.unique otherOpened
        have textual : item.Textual := textual_of_innermost innermost
        obtain ⟨part, before, partResult, behind, partFitted, within⟩ :=
          fittedAll.exists_of_contains textual.goesThrough inside
        exact ih innermost within (met.imp_left Nat.le_of_succ_le_succ)
          partFitted
  | _ => cases innermost

end AttributeType

/-- A value that is or contains a word of another vocabulary is not fitted, at whatever depth the
word is met, unless the word stands where a collection is expected and its text is that of a word
of the vocabulary. Such a word is read like any other text. -/
theorem other_words_are_refused {spec : TypeSpec} {type : AttributeType}
    (resolved : spec.resolve = .ok type) {words others : Vocabulary}
    (innermost : type.innermost = .vocabulary words) (known : others ∈ Vocabulary.all)
    (different : others ≠ words) {word : Member} (member : word ∈ others.members) :
    (∀ value memory level, Contains (.value value) memory level (.member word) →
      type.layers ≤ level ∨ words.ofText? word.text = none →
      ∃ failure, (type.coerce value).run memory = .error failure) ∧
    ∀ memory, (∃ failure, (type.coerce (.member word)).run memory = .error failure) ↔
      type.layers = 0 ∨ words.ofText? word.text = none := by
  have wordsKnown : words ∈ Vocabulary.all := by
    have innermostKnown := (resolve_known spec type resolved).innermost
    rwa [innermost] at innermostKnown
  have foreign : word.vocabulary ≠ words.name := by
    rw [vocabulary_of_mem_members member]
    exact fun sameName => different (vocabulary_eq_of_name wordsKnown known sameName)
  have solid := word_solid known member
  have refused : ∀ value memory level, Contains (.value value) memory level (.member word) →
      type.layers ≤ level ∨ words.ofText? word.text = none →
      ∃ failure, (type.coerce value).run memory = .error failure := by
    intro value memory level contained met
    cases fitted : (type.coerce value).run memory with
    | error failure => exact ⟨failure, rfl⟩
    | ok pair =>
      exact absurd fitted
        (AttributeType.coerce_ne_ok_of_contains innermost solid foreign contained met)
  refine ⟨refused, fun memory => ⟨?_, fun met => ?_⟩⟩
  · rintro ⟨failure, failed⟩
    cases type with
    | vocabulary own => exact .inl rfl
    | spaced container item =>
      right
      by_contra present
      obtain ⟨value, parsed⟩ := (AttributeType.parse_solid_iff innermost solid).mpr present
      have fitted : ((AttributeType.spaced container item).coerce (.member word)).run memory =
          .ok (value, memory) := by
        rw [coerce_spaced_of_content? rfl]
        exact run_parseContent_eq_ok.mpr ⟨parsed, rfl⟩
      cases failed.symm.trans fitted
    | _ => cases innermost
  · exact refused _ memory 0 .self (met.imp_left Nat.le_of_eq)

namespace OtherWords

def searchRole : Member := ⟨"Role", "Search", "search"⟩

def searchLink : Member := ⟨"LinkType", "Search", "search"⟩

def linkSets : TypeSpec := .mk "SpacedList" [.mk "SpacedSet" [.mk "LinkType" []]]

def mixedLinks : Value := .list [.text "icon next", .tuple [.text "prev", .member searchRole]]

theorem searchRole_member : searchRole ∈ Vocabulary.role.members := by
  decide

theorem role_ne_linkType : Vocabulary.role ≠ .linkType := by
  intro same
  exact absurd (congrArg Vocabulary.name same) (by decide)

end OtherWords

open OtherWords

/-- The role is met where a link type is expected, so it makes no difference that there is a link
type of the same text. -/
theorem mixedLinks_are_refused :
    Contains (.value mixedLinks) (.start []) 2 (.member searchRole) ∧
      ∃ failure, ((AttributeType.spaced .list (.spaced .set (.vocabulary .linkType))).coerce
        mixedLinks).run (.start []) = .error failure := by
  have contained : Contains (.value mixedLinks) (.start []) 2 (.member searchRole) :=
    .part rfl (.items rfl) (.further (.whole rfl) (.first
      (.part rfl (.items rfl) (.further (.whole rfl) (.first .self)))))
  have resolved : linkSets.resolve =
      .ok (.spaced .list (.spaced .set (.vocabulary .linkType))) := rfl
  have known : Vocabulary.role ∈ Vocabulary.all := by simp [Vocabulary.all]
  have refused := other_words_are_refused resolved rfl known role_ne_linkType searchRole_member
  exact ⟨contained, refused.1 mixedLinks (.start []) 2 contained (.inl (by decide))⟩

/-- A role in the place of a set of link types is taken for the link type of the same text. -/
theorem searchRole_is_taken_for_a_link :
    searchRole ∈ Vocabulary.role.members ∧ Vocabulary.role ≠ .linkType ∧
      ((AttributeType.spaced .set (.vocabulary .linkType)).coerce (.member searchRole)).run
        (.start []) = .ok (.spaced .set [.member searchLink], .start []) := by
  have known : Vocabulary.linkType ∈ Vocabulary.all := by simp [Vocabulary.all]
  have member : searchLink ∈ Vocabulary.linkType.members := by decide
  refine ⟨searchRole_member, role_ne_linkType, ?_⟩
  rw [coerce_spaced_of_content? rfl]
  refine run_parseContent_eq_ok.mpr ⟨(parse_spaced_of_solid (word_solid known member)).mpr
    ⟨.member searchLink, ?_, rfl⟩, rfl⟩
  rw [AttributeType.parse, ofText?_text known member]

end TypedMarkup
