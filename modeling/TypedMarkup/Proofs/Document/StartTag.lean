import Mathlib.Data.List.Basic
import TypedMarkup.Document.Element
import TypedMarkup.Proofs.Table

/-!
Contract: the start tag of an element whose attributes have been written one by one.

Owns: the order in which start tags list attributes, and what a sequence of writes to the slots of
an element leaves in its start tag: each name once, in ascending order, with the value of its last
write.
-/

namespace TypedMarkup

variable {slots : List (String × Value)}

/-! ## Ascending order -/

/-- Names go up, so none of them is repeated. -/
def Ascending {α : Type} (entries : List (String × α)) : Prop :=
  entries.Pairwise fun first later => first.1 < later.1

/-- Two ascending lists with the same entries are the same list. -/
theorem Ascending.eq_of_mem_iff {α : Type} {left right : List (String × α)}
    (leftAscends : Ascending left) (rightAscends : Ascending right)
    (sameEntries : ∀ entry, entry ∈ left ↔ entry ∈ right) : left = right := by
  have nodup : ∀ {entries : List (String × α)}, Ascending entries → entries.Nodup := by
    intro entries ascends
    refine ascends.imp ?_
    rintro first _ below rfl
    exact String.lt_irrefl _ below
  have permuted : left.Perm right :=
    (List.perm_ext_iff_of_nodup (nodup leftAscends) (nodup rightAscends)).mpr sameEntries
  refine permuted.eq_of_pairwise ?_ leftAscends rightAscends
  intro first later _ _ below above
  exact absurd (String.lt_trans below above) (String.lt_irrefl _)

theorem notBelow_trans (first second third : String) (low : (!decide (second < first)) = true)
    (high : (!decide (third < second)) = true) : (!decide (third < first)) = true := by
  simp only [Bool.not_eq_true', decide_eq_false_iff_not, String.not_lt] at *
  exact String.le_trans low high

theorem notBelow_total (first second : String) :
    ((!decide (second < first)) || (!decide (first < second))) = true := by
  simp only [Bool.or_eq_true, Bool.not_eq_true', decide_eq_false_iff_not, String.not_lt]
  exact String.le_total first second

theorem lt_of_notBelow {first second : String} (notBelow : (!decide (second < first)) = true)
    (different : first ≠ second) : first < second := by
  simp only [Bool.not_eq_true', decide_eq_false_iff_not] at notBelow
  apply Decidable.byContradiction
  intro notAbove
  exact different (String.le_antisymm (String.not_lt.mp notBelow) (String.not_lt.mp notAbove))

/-- Sorting names that are not repeated makes them go up. -/
theorem pairwise_sortNames {names : List String} (nodup : names.Nodup) :
    (sortNames names).Pairwise (· < ·) := by
  have sorted := List.pairwise_mergeSort notBelow_trans notBelow_total names
  have different : (sortNames names).Nodup := (List.mergeSort_perm names _).nodup_iff.mpr nodup
  exact sorted.imp₂ (fun _ _ => lt_of_notBelow) different

theorem mem_sortNames {names : List String} {name : String} :
    name ∈ sortNames names ↔ name ∈ names :=
  (List.mergeSort_perm names _).mem_iff

/-! ## Slots -/

theorem slotTexts_eq_map
    (slots : List (String × Value)) : slotTexts slots = slots.map slotText := by
  induction slots with
  | nil => rfl
  | cons slot rest ih => rw [slotTexts, ih, List.map_cons]

theorem slotText_fst (slot : String × Value) : (slotText slot).1 = slot.1 := by
  obtain ⟨key, value⟩ := slot
  cases value <;> rfl

/-- How a slot stands in a start tag. -/
def slotMarkup (slot : String × SlotText) : String :=
  match slot.2 with
  | .absent => ""
  | .bare => " " ++ dashed slot.1
  | .text value => " " ++ dashed slot.1 ++ "=\"" ++ Text.escapeAttribute value ++ "\""

theorem slotsMarkup_eq_join (slots : List (String × SlotText)) :
    slotsMarkup slots = String.join ((writtenSlots slots).map slotMarkup) := rfl

/-- Whether a slot is in the start tag. -/
def IsWritten (slot : String × Value) : Prop := (slotText slot).2 ≠ .absent

/-- Of several slots with one name, only the first is in the start tag. -/
def Unrepeated (slots : List (String × Value)) : Prop :=
  slots.Pairwise fun first later => later.1 = first.1 → ¬ IsWritten later

theorem unrepeated_of_none (unset : ∀ slot ∈ slots, slot.2 = .none) :
    Unrepeated slots := by
  apply List.pairwise_of_forall_mem_list
  intro first _ later member _ written
  obtain ⟨key, value⟩ := later
  cases unset _ member
  exact written rfl

theorem Unrepeated.put (unrepeated : Unrepeated slots)
    (key : String) (value : Value) : Unrepeated (Table.put key value slots) := by
  induction slots with
  | nil => exact List.pairwise_singleton _ _
  | cons slot rest ih =>
    obtain ⟨here, further⟩ := List.pairwise_cons.mp unrepeated
    rw [Table.put]
    split
    · next same =>
      refine List.pairwise_cons.mpr ⟨?_, further⟩
      intro later member
      exact same ▸ here later member
    · next different =>
      refine List.pairwise_cons.mpr ⟨?_, ih further⟩
      -- The slot that changes has another name than this one.
      exact Table.forall_mem_put (fun same => absurd same.symm different) here

theorem Unrepeated.putAll (unrepeated : Unrepeated slots)
    (entries : List (String × Value)) : Unrepeated (Table.putAll slots entries) := by
  induction entries generalizing slots with
  | nil => exact unrepeated
  | cons entry rest ih => exact ih (unrepeated.put _ _)

/-- A slot that is in the start tag is the one that is found by its name. -/
theorem Unrepeated.get?_of_mem (unrepeated : Unrepeated slots)
    {slot : String × Value} (member : slot ∈ slots) (written : IsWritten slot) :
    Table.get? slots slot.1 = some slot.2 := by
  induction slots with
  | nil => cases member
  | cons first rest ih =>
    obtain ⟨here, further⟩ := List.pairwise_cons.mp unrepeated
    rw [Table.get?_cons]
    rcases List.mem_cons.mp member with rfl | among
    · rw [if_pos rfl]
    · have different : slot.1 ≠ first.1 := fun same => here slot among same written
      rw [if_neg different, ih further among]

/-- The slots of a start tag go up. -/
theorem Unrepeated.ascending (unrepeated : Unrepeated slots) :
    Ascending (writtenSlots (slotTexts slots)) := by
  have different : ((slotTexts slots).filter fun slot => slot.2 != .absent).Pairwise
      fun first later => first.1 ≠ later.1 := by
    rw [slotTexts_eq_map, List.filter_map, List.pairwise_map]
    refine (List.Pairwise.and_mem.mp (unrepeated.filter _)).imp ?_
    rintro first later ⟨-, laterMember, alone⟩ same
    rw [slotText_fst, slotText_fst] at same
    have written := (List.mem_filter.mp laterMember).2
    exact alone same.symm (by simpa [IsWritten] using written)
  have sorted := List.pairwise_mergeSort
    (fun first second third : String × SlotText => notBelow_trans first.1 second.1 third.1)
    (fun first second => notBelow_total first.1 second.1) (slotTexts slots)
  have permuted := (List.mergeSort_perm (slotTexts slots) fun left right =>
    !decide (right.1 < left.1)).filter fun slot => slot.2 != .absent
  have differentSorted := (permuted.pairwise_iff fun differ => differ.symm).mpr different
  exact (sorted.filter _).imp₂ (fun _ _ => lt_of_notBelow) differentSorted

theorem mem_writtenSlots {written : String × SlotText} :
    written ∈ writtenSlots (slotTexts slots) ↔
      ∃ slot ∈ slots, IsWritten slot ∧ slotText slot = written := by
  rw [writtenSlots, List.mem_filter, (List.mergeSort_perm _ _).mem_iff, slotTexts_eq_map,
    List.mem_map]
  constructor
  · rintro ⟨⟨slot, member, rfl⟩, present⟩
    exact ⟨slot, member, by simpa [IsWritten] using present, rfl⟩
  · rintro ⟨slot, member, present, rfl⟩
    exact ⟨⟨slot, member, rfl⟩, by simpa [IsWritten] using present⟩

/-- Slots that are left out of a start tag can be left out of the list too. -/
theorem join_map_slotMarkup_filter (slots : List (String × SlotText)) :
    String.join ((slots.filter fun slot => slot.2 != .absent).map slotMarkup) =
      String.join (slots.map slotMarkup) := by
  induction slots with
  | nil => rfl
  | cons slot rest ih =>
    obtain ⟨key, text⟩ := slot
    cases text <;> simp [slotMarkup, String.join_cons, ih]

/-- What an element without attributes has in its start tag after a sequence of writes: each name
that was written, in ascending order, with the value of its last write. -/
theorem slotsMarkup_putAll (unset : ∀ slot ∈ slots, slot.2 = .none)
    (entries : List (String × Value)) :
    slotsMarkup (slotTexts (Table.putAll slots entries)) =
      String.join ((sortNames (distinct (entries.map Prod.fst))).map fun key =>
        slotMarkup (slotText (key, (entries.reverse.lookup key).getD .none))) := by
  have unrepeated := (unrepeated_of_none unset).putAll entries
  -- The names with their last values, as far as they are written.
  let last := (sortNames (distinct (entries.map Prod.fst))).map fun key =>
    slotText (key, (entries.reverse.lookup key).getD .none)
  have ascending : Ascending (last.filter fun slot => slot.2 != .absent) := by
    refine List.Pairwise.filter _ (List.pairwise_map.mpr ?_)
    simp only [slotText_fst]
    exact pairwise_sortNames (Table.nodup_distinct_names entries)
  have sameSlots : writtenSlots (slotTexts (Table.putAll slots entries)) =
      last.filter fun slot => slot.2 != .absent := by
    apply unrepeated.ascending.eq_of_mem_iff ascending
    intro entry
    rw [mem_writtenSlots, List.mem_filter, List.mem_map]
    constructor
    · rintro ⟨⟨key, value⟩, member, written, rfl⟩
      have found := unrepeated.get?_of_mem member written
      rw [Table.get?_putAll] at found
      have wrote : entries.reverse.lookup key = some value := by
        rcases Option.or_eq_some_iff.mp found with here | ⟨-, before⟩
        · exact here
        · -- A slot that was there before is not set, so it is not written.
          cases unset _ (Table.mem_of_get? before)
          exact absurd rfl written
      have named : key ∈ sortNames (distinct (entries.map Prod.fst)) := by
        rw [mem_sortNames, Table.mem_distinct_names, wrote]
        rfl
      refine ⟨⟨key, named, by rw [wrote, Option.getD_some]⟩, ?_⟩
      simpa [IsWritten] using written
    · rintro ⟨⟨key, named, rfl⟩, present⟩
      rw [mem_sortNames, Table.mem_distinct_names, Option.isSome_iff_exists] at named
      obtain ⟨value, wrote⟩ := named
      rw [wrote, Option.getD_some] at present ⊢
      have found : Table.get? (Table.putAll slots entries) key = some value := by
        rw [Table.get?_putAll, wrote, Option.some_or]
      exact ⟨(key, value), Table.mem_of_get? found, by simpa [IsWritten] using present, rfl⟩
  rw [slotsMarkup_eq_join, sameSlots, join_map_slotMarkup_filter, List.map_map]
  rfl

end TypedMarkup
