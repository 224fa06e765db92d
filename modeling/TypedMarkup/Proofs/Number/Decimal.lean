import TypedMarkup.Number.Reading
import TypedMarkup.Proofs.Text.Fields

/-!
Contract: integers as they are written.

Owns: that the decimal form of an integer is a solid text, and that reading it gives the integer
again, up to the number of digits that an integer may have.
-/

namespace TypedMarkup

variable {character : Char} {number : Int}

theorem Text.trimWhere_eq_self {test : Char → Bool} {text : List Char}
    (none : ∀ character ∈ text, test character = false) : trimWhere test text = text := by
  have untouched : ∀ characters : List Char, (∀ character ∈ characters, test character = false) →
      characters.dropWhile test = characters := by
    intro characters outside
    cases characters with
    | nil => rfl
    | cons first rest =>
      rw [List.dropWhile_cons, outside first List.mem_cons_self, if_neg Bool.false_ne_true]
  rw [trimWhere, untouched text none, dropTrailing,
    untouched text.reverse fun character member => none character (List.mem_reverse.mp member),
    List.reverse_reverse]

namespace Number

/-! ## The characters of an integer -/

def isDecimal (character : Char) : Bool :=
  character.isDigit || character == '-'

section

variable (decimal : isDecimal character = true)

include decimal

theorem toNat_of_isDecimal : 45 ≤ character.toNat ∧ character.toNat ≤ 57 := by
  rw [isDecimal, Bool.or_eq_true] at decimal
  rcases decimal with digit | minus
  · have lower : 48 ≤ character.toNat := (Char.isDigit_iff_toNat.mp digit).1
    have upper : character.toNat ≤ 57 := (Char.isDigit_iff_toNat.mp digit).2
    omega
  · rw [eq_of_beq minus]
    decide

theorem isBlank_of_isDecimal : Text.isBlank character = false := by
  have bounds := toNat_of_isDecimal decimal
  exact Text.isBlank_of_isVisible (Text.isVisible_iff.mpr ⟨by omega, by omega⟩)

theorem isPadding_of_isDecimal : isPadding character = false := by
  have bounds := toNat_of_isDecimal decimal
  have notSpace : (character == ' ') = false := by
    rw [beq_eq_false_iff_ne]
    rintro rfl
    exact absurd bounds.1 (by decide)
  rw [isPadding, notSpace, Bool.false_or, Bool.and_eq_false_iff, decide_eq_false_iff_not,
    decide_eq_false_iff_not]
  omega

theorem plainCharacter_of_isDecimal : plainCharacter character = character := by
  have bounds := toNat_of_isDecimal decimal
  rw [plainCharacter, if_pos (by omega)]

end

theorem withoutUnderscores_eq_some {text : List Char} (absent : '_' ∉ text) (digitBefore : Bool) :
    withoutUnderscores digitBefore text = some text := by
  induction text generalizing digitBefore with
  | nil => rfl
  | cons character rest ih =>
    obtain ⟨notHere, notFurther⟩ := List.ne_and_not_mem_of_not_mem_cons absent
    have other : (character == '_') ≠ true := fun same => notHere (eq_of_beq same).symm
    rw [withoutUnderscores, if_neg other, ih notFurther]
    · rfl
    · intro next more same
      exact absurd same.symm notHere

/-! ## Integers -/

/-- An integer is written as its digits, behind a minus if it is negative. -/
theorem toList_toString (number : Int) :
    (toString number).toList =
      (if number < 0 then ['-'] else []) ++ Nat.toDigits 10 number.natAbs := by
  rw [Int.toString_eq_repr, Int.repr_eq_if]
  by_cases negative : number < 0
  · have size : (-number).toNat = number.natAbs := by omega
    rw [if_neg (by omega), if_pos negative, size, String.toList_append, Nat.toList_repr]
    rfl
  · have size : number.toNat = number.natAbs := by omega
    rw [if_pos (by omega), if_neg negative, size, Nat.toList_repr, List.nil_append]

theorem isDecimal_of_mem_toString
    (member : character ∈ (toString number).toList) : isDecimal character = true := by
  rw [toList_toString, List.mem_append] at member
  rw [isDecimal, Bool.or_eq_true]
  rcases member with sign | digit
  · right
    split at sign
    · rw [List.mem_singleton.mp sign]
      rfl
    · cases sign
  · exact .inl (Nat.isDigit_of_mem_toDigits (by decide) (by decide) digit)

theorem toString_solid (number : Int) : Text.Solid (toString number) where
  nonempty := by
    rw [toList_toString]
    exact List.append_ne_nil_of_right_ne_nil _ Nat.toDigits_ne_nil
  unbroken _ member := isBlank_of_isDecimal (isDecimal_of_mem_toString member)

theorem splitSign_written :
    splitSign (toString number).toList =
      (decide (number < 0), Nat.toDigits 10 number.natAbs) := by
  rw [toList_toString]
  by_cases negative : number < 0
  · rw [if_pos negative, decide_eq_true negative, List.singleton_append, splitSign]
  · rw [if_neg negative, decide_eq_false negative, List.nil_append]
    unfold splitSign
    split
    · next rest digits =>
      have minus : '-' ∈ Nat.toDigits 10 number.natAbs := digits ▸ List.mem_cons_self
      exact absurd (Nat.isDigit_of_mem_toDigits (by decide) (by decide) minus) (by decide)
    · next rest digits =>
      have plus : '+' ∈ Nat.toDigits 10 number.natAbs := digits ▸ List.mem_cons_self
      exact absurd (Nat.isDigit_of_mem_toDigits (by decide) (by decide) plus) (by decide)
    · rfl

theorem length_toDigits_le {size count : Nat} (positive : 0 < count)
    (small : size < Nat.pow 10 count) : (Nat.toDigits 10 size).length ≤ count :=
  (Nat.length_toDigits_le_iff (by decide) positive).mpr small

theorem signed_natAbs (number : Int) :
    Binary64.signed (decide (number < 0)) number.natAbs = number := by
  unfold Binary64.signed
  split
  · next negative =>
    have below := of_decide_eq_true negative
    omega
  · next notNegative =>
    have above : ¬ number < 0 := of_decide_eq_false (Bool.eq_false_iff.mpr notNegative)
    omega

/-- What is written for an integer is read as this integer, unless it has too many digits. -/
theorem readInteger?_toString (short : number.natAbs < Nat.pow 10 digitLimit) :
    readInteger? (Text.trim (toString number)) = some number := by
  have decimal : ∀ character ∈ (toString number).toList, isDecimal character = true :=
    fun _ => isDecimal_of_mem_toString
  have trimmed : Text.trim (toString number) = toString number := by
    rw [Text.trim, Text.trimWhere_eq_self fun character member =>
      isBlank_of_isDecimal (decimal character member), String.ofList_toList]
  have seen : plain (toString number) = (toString number).toList := by
    rw [plain, List.map_congr_left fun character member =>
      plainCharacter_of_isDecimal (decimal character member), List.map_id',
      Text.trimWhere_eq_self fun character member =>
        isPadding_of_isDecimal (decimal character member)]
  have noUnderscore : '_' ∉ (toString number).toList := by
    intro member
    exact absurd (decimal '_' member) (by decide)
  have digits : (Nat.toDigits 10 number.natAbs).all Char.isDigit = true :=
    List.all_eq_true.mpr fun _ member =>
      Nat.isDigit_of_mem_toDigits (by decide) (by decide) member
  have few : ¬ digitLimit < (Nat.toDigits 10 number.natAbs).length :=
    Nat.not_lt.mpr (length_toDigits_le (by decide) short)
  have size : ofDigits (Nat.toDigits 10 number.natAbs) = number.natAbs :=
    Nat.ofDigitChars_ten_toDigits
  have present : (Nat.toDigits 10 number.natAbs).isEmpty = false := by
    rw [List.isEmpty_eq_false_iff]
    exact Nat.toDigits_ne_nil
  rw [readInteger?, readInteger, trimmed, seen, withoutUnderscores_eq_some noUnderscore]
  simp only [splitSign_written, present, digits, few, size, signed_natAbs, Bool.not_true,
    Bool.or_self,
    if_false, Bool.false_eq_true]

end Number

end TypedMarkup
