import Mathlib.Data.List.Perm.Basic
import TypedMarkup.Host.Equality

/-!
Contract: the distinct values of a list.

Owns: `ToldApart`, the lists in which no value agrees with one before it, and that `distinctValues`
makes such lists and leaves them as they are. The order in which the values of a set are met
rearranges them and keeps them told apart.
-/

namespace TypedMarkup

variable {values lefts rights : List Value} {value : Value}

/-- No value of a list agrees with one before it. -/
def ToldApart (values : List Value) : Prop :=
  values.Pairwise fun earlier later => later.agrees earlier = false

theorem toldApart_insertDistinct (apart : ToldApart values) :
    ToldApart (insertDistinct values value) := by
  unfold insertDistinct
  split
  · exact apart
  · next unlike =>
    have unlikeEach : ∀ earlier ∈ values, value.agrees earlier = false := by
      intro earlier member
      exact Bool.eq_false_iff.mpr fun agrees => unlike (List.any_eq_true.mpr ⟨_, member, agrees⟩)
    refine List.pairwise_append.mpr ⟨apart, List.pairwise_singleton _ _, ?_⟩
    intro earlier member later same
    rw [List.mem_singleton.mp same]
    exact unlikeEach earlier member

theorem toldApart_distinctValues (values : List Value) : ToldApart (distinctValues values) := by
  have inserted : ∀ (rest found : List Value), ToldApart found →
      ToldApart (rest.foldl insertDistinct found) := by
    intro rest
    induction rest with
    | nil => exact fun found apart => apart
    | cons first rest ih =>
      exact fun found apart => ih _ (toldApart_insertDistinct apart)
  exact inserted values [] List.Pairwise.nil

theorem distinctValues_eq_self (apart : ToldApart values) :
    distinctValues values = values := by
  have appended : ∀ rest found : List Value, ToldApart (found ++ rest) →
      rest.foldl insertDistinct found = found ++ rest := by
    intro rest
    induction rest with
    | nil => exact fun found _ => (List.append_nil found).symm
    | cons first rest ih =>
      intro found apart
      have unlike : ¬ found.any first.agrees = true := by
        intro agreeing
        obtain ⟨earlier, member, agrees⟩ := List.any_eq_true.mp agreeing
        have differs := (List.pairwise_append.mp apart).2.2 earlier member first
          List.mem_cons_self
        rw [agrees] at differs
        cases differs
      rw [List.foldl_cons, insertDistinct, if_neg unlike, ih, List.append_assoc,
        List.singleton_append]
      rwa [List.append_assoc, List.singleton_append]
  exact appended values [] apart

theorem subset_insertDistinct (values : List Value) (value : Value) :
    values ⊆ insertDistinct values value := by
  unfold insertDistinct
  split
  · exact List.Subset.refl values
  · exact List.subset_append_left values [value]

/-- A value is left out only where one that it agrees with is kept. -/
theorem mem_or_agrees_distinctValues (member : value ∈ values) :
    value ∈ distinctValues values ∨ ∃ kept ∈ distinctValues values, value.agrees kept = true := by
  have kept : ∀ (rest found : List Value), found ⊆ rest.foldl insertDistinct found := by
    intro rest
    induction rest with
    | nil => exact fun found => List.Subset.refl found
    | cons first rest ih =>
      exact fun found =>
        List.Subset.trans (subset_insertDistinct found first) (ih _)
  have inserted : ∀ (rest found : List Value), value ∈ rest →
      value ∈ rest.foldl insertDistinct found ∨
        ∃ kept ∈ rest.foldl insertDistinct found, value.agrees kept = true := by
    intro rest
    induction rest with
    | nil => exact fun found absent => absurd absent List.not_mem_nil
    | cons first rest ih =>
      intro found member
      rcases List.mem_cons.mp member with rfl | further
      · rw [List.foldl_cons, insertDistinct]
        split
        · next agreeing =>
          obtain ⟨earlier, earlierMember, agrees⟩ := List.any_eq_true.mp agreeing
          exact .inr ⟨earlier, kept rest found earlierMember, agrees⟩
        · exact .inl (kept rest _ (List.mem_append_right found List.mem_cons_self))
      · exact ih _ further
  exact inserted values [] member

/-! ## Agreement of collections -/

theorem agreeAll_iff :
    agreeAll lefts rights = true ↔
      List.Forall₂ (fun left right => left.agrees right = true) lefts rights := by
  induction lefts generalizing rights with
  | nil => cases rights <;> simp [agreeAll]
  | cons left lefts ih =>
    cases rights with
    | nil => simp [agreeAll]
    | cons right rights => simp [agreeAll, ih, Value.agrees]

theorem allAmong_iff {others : List Value} :
    allAmong values others = true ↔
      ∀ value ∈ values, ∃ other ∈ others, value.agrees other = true := by
  induction values with
  | nil => simp [allAmong]
  | cons value rest ih =>
    simp [allAmong, ih, Value.agrees]

theorem spacedList_agrees_iff :
    (Value.spaced .list lefts).agrees (.spaced .list rights) = true ↔
      List.Forall₂ (fun left right => left.agrees right = true) lefts rights := by
  rw [Value.agrees, Value.sameNaN, Bool.false_or, Value.equal, ← agreeAll_iff]
  · rfl
  · simp

theorem spacedSet_agrees_iff :
    (Value.spaced .set lefts).agrees (.spaced .set rights) = true ↔
      lefts.length = rights.length ∧
        ∀ left ∈ lefts, ∃ right ∈ rights, left.agrees right = true := by
  rw [Value.agrees, Value.sameNaN, Bool.false_or, Value.equal, ← allAmong_iff]
  · simp [Value.setItems?]
  · simp

/-! ## Numbers -/

theorem Binary64.same_comm (left right : Binary64) : left.same right = right.same left := by
  cases left with
  | nan => cases right <;> rfl
  | _ =>
    cases right with
    | nan => rfl
    | _ => exact Bool.and_comm _ _

theorem Numeric.same_comm (first second : Numeric) : first.same second = second.same first := by
  cases first with
  | int left =>
    cases second with
    | int right => exact Bool.beq_comm
    | real right => rfl
  | real left =>
    cases second with
    | int right => rfl
    | real right => exact Binary64.same_comm left right

theorem equal_eq_same {left right : Value} {first second : Numeric}
    (leftNumber : left.numeric? = some first) (rightNumber : right.numeric? = some second) :
    left.equal right = first.same second := by
  have plain : left.equal right = left.equalPlain right := by
    cases left with
    | bool | int | real => rw [Value.equal] <;> intros <;> contradiction
    | _ => cases leftNumber
  have compared : left.equalPlain right = first.same second := by
    cases left with
    | bool | int | real =>
      cases right with
      | bool | int | real =>
        cases leftNumber
        cases rightNumber
        rfl
      | _ => cases rightNumber
    | _ => cases leftNumber
  exact plain.trans compared

/-- A value with a residue is a number, and agrees with another value only if they are equal. -/
theorem numeric_of_residue (residue : (WalkOrder.residue? value).isSome = true) :
    value.numeric?.isSome = true ∧ ∀ other : Value, value.agrees other = value.equal other := by
  cases value with
  | bool | int => exact ⟨rfl, fun other => Bool.false_or _⟩
  | real number identity =>
    cases number with
    | nan => cases residue
    | _ => exact ⟨rfl, fun other => Bool.false_or _⟩
  | _ => cases residue

theorem agrees_comm_of_residue {left right : Value}
    (leftResidue : (WalkOrder.residue? left).isSome = true)
    (rightResidue : (WalkOrder.residue? right).isSome = true) :
    left.agrees right = right.agrees left := by
  obtain ⟨leftNumber, leftAgrees⟩ := numeric_of_residue leftResidue
  obtain ⟨rightNumber, rightAgrees⟩ := numeric_of_residue rightResidue
  obtain ⟨first, isFirst⟩ := Option.isSome_iff_exists.mp leftNumber
  obtain ⟨second, isSecond⟩ := Option.isSome_iff_exists.mp rightNumber
  rw [leftAgrees, rightAgrees, equal_eq_same isFirst isSecond, equal_eq_same isSecond isFirst,
    Numeric.same_comm]

/-! ## The order in which a set is met -/

theorem walkOrder_perm {α : Type} (values : List Value) (belongings : List α) :
    (walkOrder values belongings).Perm belongings := by
  unfold walkOrder
  split
  · have places : (belongings.zipIdx.map Prod.fst).Perm belongings := by
      rw [List.zipIdx_map_fst]
    exact ((List.mergeSort_perm _ _).map Prod.fst).trans places
  · exact List.Perm.refl belongings

theorem isSome_of_mapM_eq_some {α β : Type} {step : α → Option β} {items : List α}
    {results : List β} (found : items.mapM step = some results) :
    ∀ item ∈ items, (step item).isSome = true := by
  induction items generalizing results with
  | nil => exact List.forall_mem_nil _
  | cons item rest ih =>
    rw [List.mapM_cons, Option.bind_eq_bind, Option.bind_eq_some_iff] at found
    obtain ⟨first, here, behind⟩ := found
    obtain ⟨more, further, -⟩ := Option.bind_eq_some_iff.mp behind
    exact List.forall_mem_cons.mpr ⟨Option.isSome_of_eq_some here, ih further⟩

/-- Only numbers change places, and numbers that are told apart can be told apart from either
side. -/
theorem toldApart_walkOrder (apart : ToldApart values) :
    ToldApart (walkOrder values values) := by
  cases residues : values.mapM WalkOrder.residue? with
  | none =>
    unfold walkOrder
    rw [residues]
    exact apart
  | some found =>
    have numbers := isSome_of_mapM_eq_some residues
    let differ : Value → Value → Prop :=
      fun first second => first.agrees second = false ∧ second.agrees first = false
    have eitherWay : values.Pairwise differ := by
      refine List.Pairwise.imp_of_mem ?_ apart
      intro earlier later earlierMember laterMember unlike
      refine ⟨?_, unlike⟩
      rw [agrees_comm_of_residue (numbers earlier earlierMember) (numbers later laterMember)]
      exact unlike
    have rearranged : (walkOrder values values).Pairwise differ :=
      (walkOrder_perm values values).symm.pairwise eitherWay fun unlike => unlike.symm
    exact rearranged.imp fun unlike => unlike.2

end TypedMarkup
