import TypedMarkup.Proofs.Schema.Fitting

/-!
Contract: what is read from text can be written again.

Owns: the bound on integers that are read, which is the bound on integers that are written, and from
it that no literal of an attribute gives a value that is too long.

Does not own: values that expressions compute, which have no bound.
-/

namespace TypedMarkup

/-- Each digit makes a number at most ten times as large. -/
theorem foldl_digits_lt (digits : List Char) (allDigits : digits.all Char.isDigit = true)
    (before : Nat) :
    digits.foldl (fun number digit => 10 * number + (digit.toNat - 0x30)) before <
      (before + 1) * Nat.pow 10 digits.length := by
  induction digits generalizing before with
  | nil => simp
  | cons digit rest ih =>
    rw [List.all_cons, Bool.and_eq_true] at allDigits
    have small : digit.toNat - 0x30 ≤ 9 := by
      have inRange := allDigits.1
      simp only [Char.isDigit, Bool.and_eq_true, decide_eq_true_eq, UInt32.le_iff_toNat_le]
        at inRange
      have upper : digit.toNat ≤ 57 := inRange.2
      omega
    have further := ih allDigits.2 (10 * before + (digit.toNat - 0x30))
    have room : 10 * before + (digit.toNat - 0x30) + 1 ≤ (before + 1) * 10 := by omega
    have grows : Nat.pow 10 (rest.length + 1) = Nat.pow 10 rest.length * 10 := rfl
    calc (digit :: rest).foldl (fun number digit => 10 * number + (digit.toNat - 0x30)) before
        < (10 * before + (digit.toNat - 0x30) + 1) * Nat.pow 10 rest.length := further
      _ ≤ (before + 1) * 10 * Nat.pow 10 rest.length := Nat.mul_le_mul_right _ room
      _ = (before + 1) * Nat.pow 10 (digit :: rest).length := by
          rw [List.length_cons, grows, Nat.mul_assoc, Nat.mul_comm 10]

theorem lt_powTen {size few : Nat} (many : Nat) (fewer : few ≤ many)
    (small : size < Nat.pow 10 few) : size < Nat.pow 10 many :=
  Nat.lt_of_lt_of_le small (Nat.pow_le_pow_right (by decide) fewer)

/-- An integer that can be read has no more digits than one that can be written. -/
theorem natAbs_lt_of_readInteger? {text : String} {number : Int}
    (found : Number.readInteger? text = some number) : number.natAbs < longNumber := by
  unfold Number.readInteger? at found
  split at found
  · next value reading =>
    cases found
    unfold Number.readInteger at reading
    split at reading
    · cases reading
    · next characters _ =>
      dsimp only at reading
      repeat' split at reading
      all_goals cases reading
      next malformed tooLong =>
        simp only [Bool.or_eq_true, Bool.not_eq_true', not_or, Bool.not_eq_false] at malformed
        have bound := foldl_digits_lt _ malformed.2 0
        have absolute : ∀ (negative : Bool) (size : Nat),
            (Binary64.signed negative size).natAbs = size := by
          intro negative size
          cases negative <;> simp [Binary64.signed]
        rw [absolute]
        rw [Nat.zero_add, Nat.one_mul] at bound
        unfold longNumber
        exact lt_powTen 4300 (Nat.le_of_not_lt tooLong) bound
  · cases found

theorem obstacleAmong?_eq_none {values : List Value} :
    obstacleAmong? values = none ↔ ∀ value ∈ values, value.obstacle? = none := by
  induction values with
  | nil => simp [obstacleAmong?]
  | cons value rest ih => simp [obstacleAmong?, ih]

theorem slotObstacles_eq_map (slots : List (String × Value)) :
    slotObstacles slots = slots.map slotObstacle := by
  induction slots with
  | nil => rfl
  | cons slot rest ih => rw [slotObstacles, ih, List.map_cons]

theorem slotObstacle_snd (slot : String × Value) :
    (slotObstacle slot).2 = slot.2.obstacle? := by
  obtain ⟨key, value⟩ := slot
  rw [slotObstacle]

theorem slotObstacles_eq_none {slots : List (String × Value)} :
    firstObstacle? (slotObstacles slots) = none ↔ ∀ slot ∈ slots, slot.2.obstacle? = none := by
  rw [firstObstacle?, List.findSome?_eq_none_iff, slotObstacles_eq_map]
  simp only [List.mem_mergeSort, List.forall_mem_map, slotObstacle_snd]

/-- A value that is read from a literal can be written. -/
theorem obstacle?_of_parse {type : AttributeType} {literal : String} {value : Value}
    (parsed : type.parse literal = .ok value) : value.obstacle? = none := by
  induction type generalizing literal value with
  | string alternative =>
    cases parsed
    rfl
  | bool =>
    obtain ⟨truth, rfl⟩ := parse_admits parsed
    rfl
  | integer unsigned =>
    rw [AttributeType.parse] at parsed
    split at parsed
    · next number found =>
      unfold checkMinimum at parsed
      split at parsed
      · cases parsed
      · cases parsed
        have bounded := natAbs_lt_of_readInteger? found
        have short : ¬ longNumber ≤ number.natAbs := by omega
        simp only [Value.obstacle?, Value.isLongLiteral, short, decide_false]
        rfl
    · cases parsed
  | real =>
    obtain ⟨number, identity, rfl⟩ := parse_admits parsed
    rfl
  | vocabulary words =>
    obtain ⟨word, -, rfl⟩ := parse_admits parsed
    rfl
  | checked kind =>
    rw [AttributeType.parse] at parsed
    obtain ⟨_, -, rfl⟩ := map_eq_ok.mp parsed
    rfl
  | spaced container item ih =>
    rw [AttributeType.parse] at parsed
    obtain ⟨values, readAll, rfl⟩ := map_eq_ok.mp parsed
    have each : ∀ part ∈ values, part.obstacle? = none := by
      intro part member
      obtain ⟨written, _, readHere⟩ := exists_left_of_mem (mapM_eq_ok.mp readAll) member
      exact ih readHere
    cases container with
    | set =>
      rw [Container.collect, Value.obstacle?, obstacleAmong?_eq_none]
      exact fun part member => each part (mem_of_mem_distinctValues member)
    | list =>
      rw [Container.collect, Value.obstacle?, obstacleAmong?_eq_none]
      exact each

end TypedMarkup
