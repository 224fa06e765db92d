import TypedMarkup.Text.Blank

/-!
Contract: the blank-separated parts of a text.

Owns: `Text.Solid`, the texts that are one part, that solid texts with single spaces between them
are taken apart into just these texts again, and which characters are never blank.
-/

namespace TypedMarkup.Text

/-- A text that is one part: it has characters, and none of them is blank. -/
structure Solid (text : String) : Prop where
  nonempty : text.toList ≠ []
  unbroken : ∀ character ∈ text.toList, isBlank character = false

theorem fieldsFrom_run {begun run rest : List Char}
    (unbroken : ∀ character ∈ run, isBlank character = false) :
    fieldsFrom begun (run ++ rest) = fieldsFrom (begun ++ run) rest := by
  induction run generalizing begun with
  | nil => rw [List.nil_append, List.append_nil]
  | cons character run ih =>
    obtain ⟨here, further⟩ := List.forall_mem_cons.mp unbroken
    rw [List.cons_append, fieldsFrom, here, if_neg Bool.false_ne_true,
      ih further, List.append_assoc, List.singleton_append]

theorem fieldsFrom_blank {begun rest : List Char} {blank : Char} (present : begun ≠ [])
    (isBlank : isBlank blank = true) :
    fieldsFrom begun (blank :: rest) = begun :: fieldsFrom [] rest := by
  have started : begun.isEmpty ≠ true := fun empty => present (List.isEmpty_iff.mp empty)
  rw [fieldsFrom, if_pos isBlank, if_neg started]

/-- What is cut out of a text behind an unbroken run has characters and no blanks. -/
theorem unbroken_of_mem_fieldsFrom {begun rest found : List Char}
    (unbroken : ∀ character ∈ begun, isBlank character = false)
    (among : found ∈ fieldsFrom begun rest) :
    found ≠ [] ∧ ∀ character ∈ found, isBlank character = false := by
  induction rest generalizing begun with
  | nil =>
    rw [fieldsFrom] at among
    split at among
    · cases among
    · next started =>
      obtain rfl := List.mem_singleton.mp among
      exact ⟨fun empty => started (List.isEmpty_iff.mpr empty), unbroken⟩
  | cons character rest ih =>
    rw [fieldsFrom] at among
    split at among
    · split at among
      · exact ih (List.forall_mem_nil _) among
      · next started =>
        rcases List.mem_cons.mp among with rfl | further
        · exact ⟨fun empty => started (List.isEmpty_iff.mpr empty), unbroken⟩
        · exact ih (List.forall_mem_nil _) further
    · next notBlank =>
      refine ih ?_ among
      intro other inRun
      rcases List.mem_append.mp inRun with old | new
      · exact unbroken other old
      · rw [List.mem_singleton.mp new]
        exact Bool.eq_false_iff.mpr notBlank

theorem solid_of_mem_fields {text part : String} (member : part ∈ fields text) : Solid part := by
  obtain ⟨found, among, rfl⟩ := List.mem_map.mp member
  obtain ⟨nonempty, unbroken⟩ := unbroken_of_mem_fieldsFrom (List.forall_mem_nil _) among
  exact ⟨by rwa [String.toList_ofList], by rwa [String.toList_ofList]⟩

theorem fields_of_solid {text : String} (solid : Solid text) : fields text = [text] := by
  have whole : fieldsFrom [] text.toList = [text.toList] := by
    have run : fieldsFrom [] (text.toList ++ []) = fieldsFrom ([] ++ text.toList) [] :=
      fieldsFrom_run solid.unbroken
    rw [List.append_nil, List.nil_append] at run
    rw [run, fieldsFrom, if_neg fun empty => solid.nonempty (List.isEmpty_iff.mp empty)]
  rw [fields, whole, List.map_singleton, String.ofList_toList]

/-- Solid texts with spaces between them are taken apart again. -/
theorem fields_intercalate {texts : List String} (solid : ∀ text ∈ texts, Solid text) :
    fields (" ".intercalate texts) = texts := by
  induction texts with
  | nil => rw [String.intercalate_nil]; rfl
  | cons first rest ih =>
    obtain ⟨firstSolid, restSolid⟩ := List.forall_mem_cons.mp solid
    cases rest with
    | nil => rw [String.intercalate_singleton, fields_of_solid firstSolid]
    | cons second more =>
      have behind : (" ".intercalate (first :: second :: more)).toList =
          first.toList ++ ' ' :: (" ".intercalate (second :: more)).toList := by
        rw [String.intercalate_cons_cons, String.toList_append, String.toList_append,
          List.append_assoc]
        rfl
      have further := ih restSolid
      rw [fields] at further
      rw [fields, behind, fieldsFrom_run firstSolid.unbroken, List.nil_append,
        fieldsFrom_blank firstSolid.nonempty rfl, List.map_cons, further,
        String.ofList_toList]

/-! ## Characters that are not blank -/

def isVisible (character : Char) : Bool :=
  Nat.ble 33 character.toNat && Nat.ble character.toNat 126

theorem isVisible_iff {character : Char} :
    isVisible character = true ↔ 33 ≤ character.toNat ∧ character.toNat ≤ 126 := by
  rw [isVisible, Bool.and_eq_true, Nat.ble_eq, Nat.ble_eq]

theorem isBlank_of_isVisible {character : Char} (visible : isVisible character = true) :
    isBlank character = false := by
  have bounds := isVisible_iff.mp visible
  rw [isBlank, inRanges, List.any_eq_false]
  intro range member
  have outside : range.2 < 33 ∨ 126 < range.1 := by
    revert range
    decide
  simp only [Bool.and_eq_true, decide_eq_true_eq]
  omega

theorem isVisible_of_isDigit {character : Char} (digit : character.isDigit = true) :
    isVisible character = true := by
  have low : 48 ≤ character.toNat := (Char.isDigit_iff_toNat.mp digit).1
  have high : character.toNat ≤ 57 := (Char.isDigit_iff_toNat.mp digit).2
  exact isVisible_iff.mpr ⟨by omega, by omega⟩

theorem isVisible_of_isAlpha {character : Char} (letter : character.isAlpha = true) :
    isVisible character = true := by
  rw [isVisible_iff]
  rcases (Bool.or_eq_true _ _).mp letter with upper | lower
  · have between := of_decide_eq_true upper
    have low : 65 ≤ character.toNat := UInt32.le_iff_toNat_le.mp between.1
    have high : character.toNat ≤ 90 := UInt32.le_iff_toNat_le.mp between.2
    omega
  · have between := (Bool.and_eq_true _ _).mp lower
    have low : 97 ≤ character.toNat := UInt32.le_iff_toNat_le.mp (of_decide_eq_true between.1)
    have high : character.toNat ≤ 122 := UInt32.le_iff_toNat_le.mp (of_decide_eq_true between.2)
    omega

end TypedMarkup.Text
