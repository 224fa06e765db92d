import TypedMarkup.Proofs.Failing
import TypedMarkup.Proofs.Schema.Rereading

/-!
Contract: sets of parts.

Owns: that a set has the values of the parts of its literal and each of them once, so that neither
the order of the parts nor their repetition makes a difference to the set or to its text.
-/

namespace TypedMarkup

open Text

section

variable {item : AttributeType} {first second literal : String}

/-- Whether a collection can be read depends on the set of parts only. -/
theorem parse_error_of_parts {container : Container} {rejection : Rejection}
    (among : ∀ part ∈ fields first, part ∈ fields second)
    (failed : (AttributeType.spaced container item).parse first = .error rejection) :
    ∃ other, (AttributeType.spaced container item).parse second = .error other := by
  obtain ⟨part, member, partFails⟩ := mapM_eq_error (map_eq_error.mp failed)
  cases parsed : (AttributeType.spaced container item).parse second with
  | error other => exact ⟨other, rfl⟩
  | ok value =>
    obtain ⟨values, readAll, -⟩ := map_eq_ok.mp parsed
    obtain ⟨result, -, partReads⟩ :=
      exists_right_of_mem (mapM_eq_ok.mp readAll) (among part member)
    cases partFails.symm.trans partReads

/-- A set has the values of its parts, each of them once. -/
theorem parse_set_eq_ok (unreal : item.innermost ≠ .real) {value : Value}
    (parsed : (AttributeType.spaced .set item).parse literal = .ok value) :
    ∃ items, value = .spaced .set items ∧ items.Nodup ∧
      (∀ found ∈ items, item.ReadsSolid found) ∧
      ∀ found, found ∈ items ↔ ∃ part ∈ fields literal, item.parse part = .ok found := by
  obtain ⟨values, readAll, rfl⟩ := map_eq_ok.mp parsed
  have read := mapM_eq_ok.mp readAll
  have reads : ∀ found ∈ values, item.ReadsSolid found := by
    intro found member
    obtain ⟨part, partMember, here⟩ := exists_left_of_mem read member
    exact ⟨part, solid_of_mem_fields partMember, here⟩
  have keptReads : ∀ found ∈ distinctValues values, item.ReadsSolid found :=
    fun found member => reads found (mem_of_mem_distinctValues member)
  refine ⟨distinctValues values, rfl, ?_, keptReads, fun found => ⟨fun member => ?_, ?_⟩⟩
  · exact (toldApart_iff_nodup unreal keptReads).mp (toldApart_distinctValues values)
  · obtain ⟨part, partMember, here⟩ := exists_left_of_mem read (mem_of_mem_distinctValues member)
    exact ⟨part, partMember, here⟩
  · rintro ⟨part, partMember, here⟩
    obtain ⟨result, member, again⟩ := exists_right_of_mem read partMember
    cases here.symm.trans again
    rcases mem_or_agrees_distinctValues member with kept | ⟨kept, keptMember, agrees⟩
    · exact kept
    · rwa [((reads found member).agrees_iff unreal (keptReads kept keptMember)).mp agrees]

/-- Distinct values have distinct texts, which go up. -/
theorem pairwise_texts (unreal : item.innermost ≠ .real) {items : List Value} (nodup : items.Nodup)
    (reads : ∀ found ∈ items, item.ReadsSolid found) :
    (Container.set.texts items).Pairwise (· < ·) := by
  refine pairwise_sortNames (List.Nodup.map_on ?_ nodup)
  intro left leftMember right rightMember same
  exact (reads left leftMember).eq_of_display_eq unreal (reads right rightMember) same

theorem texts_eq_of_perm {lefts rights : List Value} (permuted : lefts.Perm rights)
    (leftAscends : (Container.set.texts lefts).Pairwise (· < ·))
    (rightAscends : (Container.set.texts rights).Pairwise (· < ·)) :
    Container.set.texts lefts = Container.set.texts rights := by
  have rearranged : (Container.set.texts lefts).Perm (Container.set.texts rights) :=
    ((Container.texts_perm .set lefts).trans (permuted.map Value.display)).trans
      (Container.texts_perm .set rights).symm
  refine rearranged.eq_of_pairwise ?_ leftAscends rightAscends
  intro early late _ _ below above
  exact absurd (String.lt_trans below above) (String.lt_irrefl _)

/-- Two literals with the same parts, in any order and repeated or not, fail both, or are read as
equal sets with one text: the texts of the distinct values in ascending order, with single blanks
between them. -/
theorem sets_ignore_order_and_repetition (unreal : item.innermost ≠ .real)
    (sameParts : ∀ part, part ∈ fields first ↔ part ∈ fields second) :
    ((∃ rejection, (AttributeType.spaced .set item).parse first = .error rejection) ∧
      ∃ rejection, (AttributeType.spaced .set item).parse second = .error rejection) ∨
    ∃ lefts rights texts,
      (AttributeType.spaced .set item).parse first = .ok (.spaced .set lefts) ∧
      (AttributeType.spaced .set item).parse second = .ok (.spaced .set rights) ∧
      (Value.spaced .set lefts).equal (.spaced .set rights) = true ∧
      (lefts.Nodup ∧ lefts.Perm rights ∧
        ∀ value, value ∈ lefts ↔ ∃ part ∈ fields first, item.parse part = .ok value) ∧
      (Value.spaced .set lefts).shown = .ok (" ".intercalate texts) ∧
      (Value.spaced .set rights).shown = .ok (" ".intercalate texts) ∧
      texts.Perm (lefts.map Value.display) ∧ texts.Pairwise (· < ·) := by
  cases parsedFirst : (AttributeType.spaced .set item).parse first with
  | error rejection =>
    exact .inl ⟨⟨rejection, rfl⟩,
      parse_error_of_parts (fun part => (sameParts part).mp) parsedFirst⟩
  | ok left =>
    cases parsedSecond : (AttributeType.spaced .set item).parse second with
    | error rejection =>
      obtain ⟨other, failed⟩ :=
        parse_error_of_parts (fun part => (sameParts part).mpr) parsedSecond
      cases failed.symm.trans parsedFirst
    | ok right =>
      obtain ⟨lefts, rfl, leftNodup, leftReads, leftMem⟩ := parse_set_eq_ok unreal parsedFirst
      obtain ⟨rights, rfl, rightNodup, rightReads, rightMem⟩ :=
        parse_set_eq_ok unreal parsedSecond
      have permuted : lefts.Perm rights := by
        rw [List.perm_ext_iff_of_nodup leftNodup rightNodup]
        intro value
        simp only [leftMem, rightMem, sameParts]
      have same : (AttributeType.spaced .set item).Same (.spaced .set lefts)
          (.spaced .set rights) :=
        ⟨lefts, rights, rights, rfl, rfl, permuted, List.forall₂_same.mpr fun value member =>
          .refl (rightReads value member).has⟩
      have unrealSet : (AttributeType.spaced .set item).innermost ≠ .real := unreal
      have ascends := pairwise_texts unreal leftNodup leftReads
      have sameTexts := texts_eq_of_perm permuted ascends
        (pairwise_texts unreal rightNodup rightReads)
      refine .inr ⟨lefts, rights, Container.set.texts lefts, rfl, rfl,
        equal_of_same unrealSet (parse_has parsedFirst) same, ⟨leftNodup, permuted, leftMem⟩,
        ?_, ?_, Container.texts_perm .set lefts, ascends⟩
      · rw [shown_of_obstacle? (obstacle?_of_parse parsedFirst), display_spaced]
      · rw [shown_of_obstacle? (obstacle?_of_parse parsedSecond), display_spaced, sameTexts]

end

/-- Ten is spelled in two ways, and one of the spellings is repeated. -/
theorem tens_are_one_set :
    ∃ left right text,
      (AttributeType.spaced .set (.integer false)).parse "10 9 010 10" = .ok left ∧
      (AttributeType.spaced .set (.integer false)).parse "\t010  9 10" = .ok right ∧
      left.equal right = true ∧ left.shown = .ok text ∧ right.shown = .ok text := by
  have firstParts : fields "10 9 010 10" = ["10", "9", "010", "10"] := rfl
  have secondParts : fields "\t010  9 10" = ["010", "9", "10"] := rfl
  have sameParts : ∀ part, part ∈ fields "10 9 010 10" ↔ part ∈ fields "\t010  9 10" := by
    rw [firstParts, secondParts]
    intro part
    simp only [List.mem_cons, List.not_mem_nil, or_false]
    tauto
  have unreal : (AttributeType.integer false).innermost ≠ .real := by decide
  have reads : yields (fun _ => true)
      ((AttributeType.spaced .set (.integer false)).parse "10 9 010 10") = true := rfl
  obtain ⟨value, parsed, -⟩ := exists_of_yields reads
  rcases sets_ignore_order_and_repetition unreal sameParts with
    ⟨⟨rejection, failed⟩, -⟩ |
    ⟨lefts, rights, texts, parsedFirst, parsedSecond, equal, -, shownFirst, shownSecond, -⟩
  · cases failed.symm.trans parsed
  · exact ⟨_, _, _, parsedFirst, parsedSecond, equal, shownFirst, shownSecond⟩

end TypedMarkup
