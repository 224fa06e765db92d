import TypedMarkup.Proofs.Schema.Coercion
import TypedMarkup.Proofs.Text.Fields

/-!
Contract: values whose texts are solid.

Owns: that the words of all vocabularies and checked names have solid texts, that a word is found by
its text, and that a collection reads a solid text as its only item.
-/

namespace TypedMarkup

open Text

/-! ## Words -/

theorem vocabularies_visible :
    (Vocabulary.all.all fun words => words.entries.all fun entry =>
      entry.2 != "" && entry.2.toList.all isVisible) = true := by
  decide +kernel

theorem vocabularies_distinct :
    (Vocabulary.all.all fun words => decide (words.entries.map Prod.snd).Nodup) = true := by
  decide +kernel

section

variable {words : Vocabulary} {word : Member}

theorem word_solid (known : words ∈ Vocabulary.all) (member : word ∈ words.members) :
    Solid word.text := by
  obtain ⟨entry, entryMember, rfl⟩ := List.mem_map.mp member
  have visible := List.all_eq_true.mp (List.all_eq_true.mp vocabularies_visible words known)
    entry entryMember
  rw [Bool.and_eq_true, bne_iff_ne, List.all_eq_true] at visible
  obtain ⟨nonempty, characters⟩ := visible
  refine ⟨?_, fun character inText => isBlank_of_isVisible (characters character inText)⟩
  exact fun empty => nonempty (String.toList_eq_nil_iff.mp empty)

theorem text_of_ofText? {text : String} (found : words.ofText? text = some word) :
    word.text = text := by
  have matched := List.find?_some found
  exact eq_of_beq matched

theorem ofText?_text (known : words ∈ Vocabulary.all) (member : word ∈ words.members) :
    words.ofText? word.text = some word := by
  have texts : (words.members.map Member.text).Nodup := by
    have nodup := of_decide_eq_true (List.all_eq_true.mp vocabularies_distinct words known)
    rwa [Vocabulary.members, List.map_map]
  cases found : words.ofText? word.text with
  | none => exact absurd (beq_self_eq_true word.text) (List.find?_eq_none.mp found word member)
  | some other =>
    rw [List.inj_on_of_nodup_map texts (List.mem_of_find?_eq_some found) member
      (text_of_ofText? found)]

end

/-! ## Names -/

/-- A table of ranges that lie apart from the blank ones has no blank character. -/
theorem isBlank_of_inRanges {table : List (Nat × Nat)} {character : Char}
    (apart : (table.all fun range => blankRanges.all fun blanks =>
      Nat.blt range.2 blanks.1 || Nat.blt blanks.2 range.1) = true)
    (inTable : inRanges table character.toNat = true) : isBlank character = false := by
  obtain ⟨range, member, within⟩ := List.any_eq_true.mp inTable
  rw [isBlank, inRanges, List.any_eq_false]
  intro blanks blankMember
  have outside := List.all_eq_true.mp (List.all_eq_true.mp apart range member) blanks blankMember
  simp only [Bool.and_eq_true, Bool.or_eq_true, decide_eq_true_eq, Nat.blt_eq] at within outside ⊢
  omega

theorem isBlank_of_isAlphanumeric {character : Char}
    (alphanumeric : isAlphanumeric character = true) : isBlank character = false := by
  rcases (Bool.or_eq_true _ _).mp alphanumeric with letter | numeral
  · unfold isLetter at letter
    split at letter
    · exact isBlank_of_isVisible (isVisible_of_isAlpha letter)
    · exact isBlank_of_inRanges (by decide +kernel) letter
  · unfold isNumeral at numeral
    split at numeral
    · exact isBlank_of_isVisible (isVisible_of_isDigit numeral)
    · exact isBlank_of_inRanges (by decide +kernel) numeral

theorem checkName_solid {what text : String} (passed : checkName what text = .ok ()) :
    Solid text := by
  unfold checkName at passed
  split at passed
  · cases passed
  · next first rest characters =>
    split at passed
    · cases passed
    · next letter =>
      split at passed
      · next fits =>
        have letter' : isLetter first = true := by simpa using letter
        refine ⟨by rw [characters]; exact List.cons_ne_nil _ _, ?_⟩
        rw [characters]
        refine List.forall_mem_cons.mpr ⟨?_, ?_⟩
        · apply isBlank_of_isAlphanumeric
          rw [isAlphanumeric, letter', Bool.true_or]
        · intro character member
          have fitting := List.all_eq_true.mp fits character member
          simp only [Bool.or_eq_true, beq_iff_eq] at fitting
          rcases fitting with ((alphanumeric | rfl) | rfl) | rfl
          · exact isBlank_of_isAlphanumeric alphanumeric
          · decide
          · decide
          · decide
      · cases passed

/-! ## Collections -/

theorem collect_singleton (container : Container) (value : Value) :
    container.collect [value] = .spaced container [value] := by
  cases container with
  | set => rfl
  | list => rfl

/-- A collection reads a solid text as its only item. -/
theorem parse_spaced_of_solid {container : Container} {item : AttributeType} {text : String}
    (solid : Solid text) {result : Value} :
    (AttributeType.spaced container item).parse text = .ok result ↔
      ∃ value, item.parse text = .ok value ∧ result = .spaced container [value] := by
  rw [AttributeType.parse, fields_of_solid solid, map_eq_ok]
  constructor
  · rintro ⟨values, read, rfl⟩
    obtain ⟨value, rest, here, others, rfl⟩ :=
      List.forall₂_cons_left_iff.mp (mapM_eq_ok.mp read)
    cases List.forall₂_nil_left_iff.mp others
    exact ⟨value, here, collect_singleton container value⟩
  · rintro ⟨value, here, rfl⟩
    exact ⟨[value], mapM_eq_ok.mpr (.cons here .nil), collect_singleton container value⟩

end TypedMarkup
