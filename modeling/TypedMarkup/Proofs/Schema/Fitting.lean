import Mathlib.Data.List.Nodup
import TypedMarkup.Proofs.Host.Evaluation
import TypedMarkup.Proofs.Schema.Resolution

/-!
Contract: reading and fitting give values of the type.

Owns: that `AttributeType.parse` and `AttributeType.coerce` end in values that the type admits, and
that the types of a registry made from declarations use known vocabularies only, which fitting a
word depends on: a word is told by the name of its vocabulary.
-/

namespace TypedMarkup

namespace AttributeType

/-- A type takes its words from known vocabularies. -/
def Known : AttributeType → Prop
  | vocabulary words => words ∈ Vocabulary.all
  | spaced _ item => item.Known
  | _ => True

instance decidableKnown : (type : AttributeType) → Decidable type.Known
  | string _ => .isTrue trivial
  | bool => .isTrue trivial
  | integer _ => .isTrue trivial
  | real => .isTrue trivial
  | vocabulary words => inferInstanceAs (Decidable (words ∈ Vocabulary.all))
  | checked _ => .isTrue trivial
  | spaced _ item => decidableKnown item

end AttributeType

/-! ## The types of a registry -/

theorem named_known : ∀ entry ∈ AttributeType.named, entry.2.Known := by
  decide +kernel

theorem globalAttributes_known : ∀ entry ∈ globalAttributes, entry.2.Known := by
  decide +kernel

theorem resolve_known (spec : TypeSpec) (type : AttributeType)
    (resolved : spec.resolve = .ok type) : type.Known := by
  induction TypeSpec.resolve_eq_ok.mp resolved with
  | named known => exact named_known _ (Table.mem_of_get? known)
  | collection _ denotes itemKnown => exact itemKnown (TypeSpec.resolve_eq_ok.mpr denotes)

theorem resolveAttributes_known {declaration : Declaration} {attributes : Table AttributeType}
    (resolved : declaration.resolveAttributes = .ok attributes) :
    ∀ entry ∈ attributes, entry.2.Known := by
  refine foldlM_keeps (fun table => ∀ entry ∈ table, entry.2.Known) ?_ resolved
    globalAttributes_known
  intro found _ before after step known
  split at step
  · next type typeResolved =>
    cases step
    exact Table.forall_mem_put (resolve_known found.type type typeResolved) known
  · cases step

/-- A registry of declarations uses known vocabularies only. -/
theorem ofDeclarations_known {declarations : List Declaration} {registry : Registry}
    (declared : Registry.ofDeclarations declarations = .ok registry) {schema : Schema}
    (member : schema ∈ registry.schemas) : ∀ entry ∈ schema.attributes, entry.2.Known := by
  obtain ⟨schemas, resolved, rfl⟩ := map_eq_ok.mp declared
  obtain ⟨_, _, resolvedAll⟩ := bind_eq_ok.mp resolved
  obtain ⟨declaration, _, resolvedHere⟩ := exists_left_of_mem (mapM_eq_ok.mp resolvedAll) member
  obtain ⟨attributes, attributesResolved, behindAttributes⟩ := bind_eq_ok.mp resolvedHere
  obtain ⟨_, _, behindRequired⟩ := bind_eq_ok.mp behindAttributes
  obtain ⟨_, _, same⟩ := bind_eq_ok.mp behindRequired
  cases pure_eq_ok.mp same
  exact resolveAttributes_known attributesResolved

/-! ## Reading -/

theorem mem_of_mem_distinctValues {values : List Value} {value : Value}
    (member : value ∈ distinctValues values) : value ∈ values := by
  have kept : ∀ (rest found : List Value), value ∈ rest.foldl insertDistinct found →
      value ∈ found ∨ value ∈ rest := by
    intro rest
    induction rest with
    | nil => exact fun found there => .inl there
    | cons first rest ih =>
      intro found there
      rcases ih _ there with inserted | further
      · unfold insertDistinct at inserted
        split at inserted
        · exact .inl inserted
        · rcases List.mem_append.mp inserted with old | new
          · exact .inl old
          · exact .inr (List.mem_singleton.mp new ▸ List.mem_cons_self)
      · exact .inr (List.mem_cons_of_mem first further)
  rcases kept values [] member with absent | there
  · cases absent
  · exact there

theorem collect_admits {container : Container} {item : AttributeType} {values : List Value}
    (admitted : ∀ value ∈ values, item.Admits value) :
    (AttributeType.spaced container item).Admits (container.collect values) := by
  cases container with
  | set => exact ⟨_, rfl, fun value member => admitted value (mem_of_mem_distinctValues member)⟩
  | list => exact ⟨_, rfl, admitted⟩

theorem checkMinimum_eq_ok {unsigned : Bool} {number : Int} {value : Value} :
    checkMinimum unsigned number = .ok value ↔
      value = .int number ∧ (unsigned = true → 0 ≤ number) := by
  unfold checkMinimum
  split
  · next low =>
    refine iff_of_false (fun fits => by cases fits) fun ⟨_, high⟩ => ?_
    rw [Bool.and_eq_true, decide_eq_true_eq] at low
    exact absurd (high low.1) (Int.not_le.mpr low.2)
  · next high =>
    rw [Except.ok.injEq, eq_comm]
    refine (and_iff_left_of_imp fun _ isUnsigned => ?_).symm
    rw [isUnsigned, Bool.true_and, decide_eq_true_eq] at high
    exact Int.not_lt.mp high

theorem checkMinimum_admits {unsigned : Bool} {number : Int} {value : Value}
    (checked : checkMinimum unsigned number = .ok value) :
    (AttributeType.integer unsigned).Admits value :=
  ⟨number, checkMinimum_eq_ok.mp checked⟩

/-- A literal that can be read gives a value of the type. -/
theorem parse_admits {type : AttributeType} {literal : String} {value : Value}
    (parsed : type.parse literal = .ok value) : type.Admits value := by
  induction type generalizing literal value with rw [AttributeType.parse] at parsed
  | string alternative =>
    cases parsed
    rfl
  | bool =>
    repeat' split at parsed
    all_goals cases parsed
    · exact ⟨true, rfl⟩
    · exact ⟨false, rfl⟩
  | integer unsigned =>
    split at parsed
    · exact checkMinimum_admits parsed
    · cases parsed
  | real =>
    split at parsed
    · next number _ =>
      cases parsed
      exact ⟨number, none, rfl⟩
    · cases parsed
  | vocabulary words =>
    split at parsed
    · next word found =>
      cases parsed
      exact ⟨word, List.mem_of_find?_eq_some found, rfl⟩
    · cases parsed
  | checked kind =>
    obtain ⟨_, passed, rfl⟩ := map_eq_ok.mp parsed
    refine ⟨.text literal, ?_⟩
    simp only [Host.checkedOf, Value.content?, passed]
  | spaced container item ih =>
    obtain ⟨values, readAll, rfl⟩ := map_eq_ok.mp parsed
    apply collect_admits
    intro part member
    obtain ⟨written, _, readHere⟩ := exists_left_of_mem (mapM_eq_ok.mp readAll) member
    exact ih readHere

/-! ## Fitting -/

open Host Host.Run

theorem vocabulary_eq_of_name {words others : Vocabulary} (known : words ∈ Vocabulary.all)
    (otherKnown : others ∈ Vocabulary.all) (sameName : others.name = words.name) :
    others = words := by
  have distinct : (Vocabulary.all.map Vocabulary.name).Nodup := by decide +kernel
  exact List.inj_on_of_nodup_map distinct otherKnown known sameName

theorem vocabulary_of_mem_members {words : Vocabulary} {word : Member}
    (member : word ∈ words.members) : word.vocabulary = words.name := by
  obtain ⟨entry, -, rfl⟩ := List.mem_map.mp member
  rfl

/-- A well-made word is a word of the vocabulary that it names. -/
theorem admits_member {words : Vocabulary} {word : Member} (known : words ∈ Vocabulary.all)
    (wellMade : (Value.member word).WellMade) (named : word.vocabulary = words.name) :
    (AttributeType.vocabulary words).Admits (.member word) := by
  obtain ⟨others, otherKnown, member⟩ := wellMade
  have named' : others.name = words.name := (vocabulary_of_mem_members member).symm.trans named
  rw [vocabulary_eq_of_name known otherKnown named'] at member
  exact ⟨word, member, rfl⟩

theorem rejected_returns {step : Except Rejection Value} {property : Value → Prop}
    (made : ∀ value, step = .ok value → property value) :
    Returns property (step.mapError Failure.rejected) := by
  cases step with
  | ok value => exact made value rfl
  | error reason => rfl

section

variable [Endings]

theorem parseContent_keeps {type : AttributeType} {content : String} :
    Keeps type.Admits (liftM (type.parseContent content) : Run Value) :=
  .lift (rejected_returns fun _ parsed => parse_admits parsed)

theorem wrongType_keeps {type : AttributeType} {value : Value} {property : Value → Prop} :
    Keeps property (liftM (type.wrongType value) : Run Value) :=
  .lift (EndsIn.error_iff.mpr rfl)

theorem fitItems_keeps {item : AttributeType} {fit : Value → Run Value} {reference fuel : Nat}
    {fitted : List Value} (each : ∀ value, value.Safe → Keeps item.Admits (fit value))
    (admitted : ∀ value ∈ fitted, item.Admits value) :
    Keeps (∀ value ∈ ·, item.Admits value) (fitItems fit reference fuel fitted) := by
  induction fuel generalizing fitted with
  | zero =>
    rw [fitItems]
    exact .throw _ rfl
  | succ fuel ih =>
    rw [fitItems]
    apply (pull_keeps reference).bind
    intro found foundSafe
    split
    · exact .pure fun value member => admitted value (List.mem_reverse.mp member)
    · next taken =>
      apply (each taken (foundSafe taken rfl)).bind
      intro value valueAdmitted
      exact ih (List.forall_mem_cons.mpr ⟨valueAdmitted, admitted⟩)

/-- A value that can be fitted to a type becomes a value of the type. -/
theorem coerce_keeps {type : AttributeType} (known : type.Known) {value : Value}
    (safe : value.Safe) : Keeps type.Admits (type.coerce value) := by
  induction type generalizing value with
      (rw [AttributeType.coerce.eq_def]; dsimp only)
  | string alternative =>
    split
    · exact wrongType_keeps
    · exact wrongType_keeps
    · split
      · next hasContent => exact .pure hasContent
      · apply (Keeps.lift_any (shown_hostOnly _)).bind
        intro shown _
        exact .pure rfl
  | bool =>
    split
    · exact parseContent_keeps
    · next truth _ => exact .pure ⟨truth, rfl⟩
    · exact wrongType_keeps
  | integer unsigned =>
    split
    · exact parseContent_keeps
    · exact .lift (rejected_returns fun _ checked => checkMinimum_admits checked)
    · exact wrongType_keeps
  | real =>
    split
    · exact parseContent_keeps
    · apply (Keeps.lift_any (realOfInt_hostOnly _)).bind
      intro number _
      exact .pure ⟨number, none, rfl⟩
    · next number identity _ => exact .pure ⟨number, identity, rfl⟩
    · exact wrongType_keeps
  | vocabulary words =>
    split
    · split
      · next named => exact .pure (admits_member known safe.wellMade named)
      · exact .throw _ rfl
    · split
      · exact parseContent_keeps
      · exact wrongType_keeps
  | checked kind =>
    split
    · split
      · next same =>
        subst same
        exact .pure safe.wellMade
      · exact parseContent_keeps
    · split
      · exact parseContent_keeps
      · exact wrongType_keeps
  | spaced container item ih =>
    split
    · exact parseContent_keeps
    · next items _ found =>
      have itemsSafe := plainItems?_safe safe found
      apply (Keeps.mapM fun part member =>
        ih known (itemsSafe part member)).bind
      intro values admitted
      exact .pure (collect_admits admitted)
    · split
      · apply (iterate_keeps safe).bind
        intro reference _
        apply (fitItems_keeps (fun _ => ih known) (List.forall_mem_nil _)).bind
        intro values admitted
        exact .pure (collect_admits admitted)
      · exact wrongType_keeps

end

end TypedMarkup
