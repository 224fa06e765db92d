import TypedMarkup.Proofs.Host.Distinct
import TypedMarkup.Proofs.Schema.Coercion

/-!
Contract: fitting is a retraction onto the values of a type.

Owns: `AttributeType.Has`, the values of a type, and `AttributeType.Same`, which is equality but for
the order in sets. What is read from a literal is a value of the type. What is fitted is one too,
unless it was taken as it is from a value that is not what its class says. A value of the type is
fitted to itself, so fitting twice is fitting once, and a plain text is fitted by reading it.
-/

namespace TypedMarkup

open Host

variable {type item : AttributeType} {container : Container} {values items : List Value}

/-- A value is what its class says: a checked text satisfies its check, and a word belongs to a
vocabulary. -/
def Value.Genuine : Value → Prop
  | checked kind content => kind.check content = .ok ()
  | member word => ∃ words ∈ Vocabulary.all, word ∈ words.members
  | _ => True

/-- The order of values counts in a list and does not count in a set. -/
def Container.Rearranges : Container → List Value → List Value → Prop
  | set, values, others => values.Perm others
  | list, values, others => values = others

namespace AttributeType

/-- The values of a type. A checked text satisfies its check, and the values of a set are told
apart. -/
def Has : AttributeType → Value → Prop
  | checked kind, value => ∃ content, value = .checked kind content ∧ kind.check content = .ok ()
  | spaced container item, value =>
    ∃ items, value = .spaced container items ∧ (container = .set → ToldApart items) ∧
      ∀ found ∈ items, item.Has found
  | type, value => type.Admits value

/-- Two values of a type are the same but for the order of the values in sets. -/
def Same : AttributeType → Value → Value → Prop
  | spaced container item, left, right =>
    ∃ lefts met rights, left = .spaced container lefts ∧ right = .spaced container rights ∧
      container.Rearranges lefts met ∧
      List.Forall₂ (fun first second => item.Same first second) met rights
  | _, left, right => left = right

/-- What a type takes as it is: words of its vocabulary, and texts of its class. -/
def Takes : AttributeType → Value → Prop
  | vocabulary words, .member word => word.vocabulary = words.name
  | checked kind, .checked found _ => found = kind
  | spaced _ item, value => item.Takes value
  | _, _ => False

/-- Fitting a value of whatever kind gives the same value back, and leaves the memory alone. -/
def Fixes (type : AttributeType) (value : Value) : Prop :=
  ∀ memory, ∃ same, (type.coerce value).run memory = .ok (same, memory) ∧ type.Same value same

theorem Takes.textual {value : Value} (takes : type.Takes value) :
    type.Textual := by
  induction type with
  | vocabulary | checked => trivial
  | spaced container item ih => exact ih takes
  | _ => cases takes

end AttributeType

/-! ## The same values agree with the same values -/

theorem Container.Rearranges.mem_iff {others : List Value}
    (rearranges : container.Rearranges values others) {value : Value} :
    value ∈ values ↔ value ∈ others := by
  cases container with
  | set => exact List.Perm.mem_iff rearranges
  | list => rw [show values = others from rearranges]

theorem forall₂_agrees_iff {same : Value → Value → Prop}
    (agreement : ∀ {left left' right right' : Value}, same left left' → same right right' →
      left.agrees right = left'.agrees right')
    {lefts lefts' rights rights' : List Value} (sameLefts : List.Forall₂ same lefts lefts')
    (sameRights : List.Forall₂ same rights rights') :
    List.Forall₂ (fun left right => left.agrees right = true) lefts rights ↔
      List.Forall₂ (fun left right => left.agrees right = true) lefts' rights' := by
  induction sameLefts generalizing rights rights' with
  | nil => cases sameRights <;> simp
  | cons first _ ih =>
    cases sameRights with
    | nil => simp
    | cons second further =>
      rw [List.forall₂_cons, List.forall₂_cons, agreement first second,
        ih further]

theorem AttributeType.Same.agrees_eq {left left' right right' : Value}
    (sameLeft : type.Same left left') (sameRight : type.Same right right') :
    left.agrees right = left'.agrees right' := by
  induction type generalizing left left' right right' with
  | spaced container item ih =>
    obtain ⟨lefts, metLefts, lefts', rfl, rfl, leftOrder, matchedLefts⟩ := sameLeft
    obtain ⟨rights, metRights, rights', rfl, rfl, rightOrder, matchedRights⟩ := sameRight
    rw [Bool.eq_iff_iff]
    cases container with
    | list =>
      obtain rfl : lefts = metLefts := leftOrder
      obtain rfl : rights = metRights := rightOrder
      rw [spacedList_agrees_iff, spacedList_agrees_iff]
      exact forall₂_agrees_iff ih matchedLefts matchedRights
    | set =>
      rw [spacedSet_agrees_iff, spacedSet_agrees_iff, List.Perm.length_eq leftOrder,
        List.Perm.length_eq rightOrder, matchedLefts.length_eq, matchedRights.length_eq]
      -- A value is taken to its counterpart, compared there, and the result is taken back.
      refine and_congr_right fun _ =>
        ⟨fun among left' member => ?_, fun among left member => ?_⟩
      · obtain ⟨left, leftMember, sameLeft⟩ := exists_left_of_mem matchedLefts member
        obtain ⟨right, rightMember, agrees⟩ := among left (leftOrder.mem_iff.mpr leftMember)
        obtain ⟨right', member', sameRight⟩ :=
          exists_right_of_mem matchedRights (rightOrder.mem_iff.mp rightMember)
        exact ⟨right', member', ih sameLeft sameRight ▸ agrees⟩
      · obtain ⟨left', leftMember, sameLeft⟩ :=
          exists_right_of_mem matchedLefts (leftOrder.mem_iff.mp member)
        obtain ⟨right', rightMember, agrees⟩ := among left' leftMember
        obtain ⟨right, member', sameRight⟩ := exists_left_of_mem matchedRights rightMember
        exact ⟨right, rightOrder.mem_iff.mpr member',
          (ih sameLeft sameRight).symm ▸ agrees⟩
  | _ =>
    obtain rfl : left = left' := sameLeft
    obtain rfl : right = right' := sameRight
    rfl

theorem ToldApart.of_same {others : List Value}
    (apart : ToldApart values) (matched : List.Forall₂ type.Same values others) :
    ToldApart others := by
  induction matched with
  | nil => exact .nil
  | cons same further ih =>
    obtain ⟨unlike, restApart⟩ := List.pairwise_cons.mp apart
    refine List.pairwise_cons.mpr ⟨fun other member => ?_, ih restApart⟩
    obtain ⟨later, laterMember, sameLater⟩ := exists_left_of_mem further member
    rw [← sameLater.agrees_eq same]
    exact unlike later laterMember

/-! ## A value of a type is fitted to itself -/

theorem coerce_collection {own : Container}
    {met : List Value} (listed : plainItems? (.spaced own items) = some met) :
    (AttributeType.spaced container item).coerce (.spaced own items) = do
      return container.collect (← met.mapM item.coerce) := by
  rw [AttributeType.coerce.eq_def]
  dsimp only
  rw [listed, show (Value.spaced own items).content? = none from rfl]

/-- A set may be gone through in another order, in which its values are still told apart. -/
theorem exists_plainItems? (apart : container = .set → ToldApart items) :
    ∃ met, plainItems? (.spaced container items) = some met ∧ container.Rearranges items met ∧
      (container = .set → ToldApart met) := by
  cases container with
  | list => exact ⟨items, rfl, rfl, fun isSet => by cases isSet⟩
  | set =>
    exact ⟨walkOrder items items, rfl, (walkOrder_perm items items).symm,
      fun _ => toldApart_walkOrder (apart rfl)⟩

theorem collect_eq (apart : container = .set → ToldApart values) :
    container.collect values = .spaced container values := by
  cases container with
  | list => rfl
  | set => rw [Container.collect, distinctValues_eq_self (apart rfl)]

theorem exists_collect_eq (container : Container) (values : List Value) :
    ∃ items, container.collect values = .spaced container items ∧
      (container = .set → ToldApart items) ∧ ∀ found ∈ items, found ∈ values := by
  cases container with
  | list => exact ⟨values, rfl, fun isSet => (by cases isSet), fun found member => member⟩
  | set =>
    exact ⟨distinctValues values, rfl, fun _ => toldApart_distinctValues values,
      fun found member => mem_of_mem_distinctValues member⟩

theorem mapM_fixes (fixes : ∀ found ∈ items, item.Fixes found) (memory : Memory) :
    ∃ results, (items.mapM item.coerce).run memory = .ok (results, memory) ∧
      List.Forall₂ item.Same items results := by
  induction items with
  | nil => exact ⟨[], rfl, .nil⟩
  | cons first rest ih =>
    obtain ⟨same, ran, alike⟩ := fixes first List.mem_cons_self memory
    obtain ⟨results, ranRest, matched⟩ :=
      ih fun found member => fixes found (List.mem_cons_of_mem _ member)
    refine ⟨same :: results, ?_, .cons alike matched⟩
    rw [List.mapM_cons, run_bind_eq_ok]
    refine ⟨same, memory, ran, run_bind_eq_ok.mpr ⟨results, memory, ranRest, ?_⟩⟩
    exact run_pure_eq_ok.mpr ⟨rfl, rfl⟩

/-- A collection is fitted to itself when its values are. -/
theorem fixes_collection
    (apart : container = .set → ToldApart items) (fixes : ∀ found ∈ items, item.Fixes found) :
    (AttributeType.spaced container item).Fixes (.spaced container items) := by
  intro memory
  obtain ⟨met, listed, rearranged, metApart⟩ := exists_plainItems? apart
  obtain ⟨results, ran, matched⟩ :=
    mapM_fixes (fun found member => fixes found (rearranged.mem_iff.mpr member)) memory
  have collected : container.collect results = .spaced container results :=
    collect_eq fun isSet => (metApart isSet).of_same matched
  refine ⟨.spaced container results, ?_, items, met, results, rfl, rfl, rearranged, matched⟩
  rw [coerce_collection listed, run_bind_eq_ok]
  exact ⟨results, memory, ran, run_pure_eq_ok.mpr ⟨collected, rfl⟩⟩

theorem fixes_member {words : Vocabulary} {word : Member} (own : word.vocabulary = words.name) :
    (AttributeType.vocabulary words).Fixes (.member word) := by
  intro memory
  refine ⟨.member word, ?_, rfl⟩
  rw [AttributeType.coerce.eq_def]
  dsimp only
  rw [if_pos own]
  rfl

theorem fixes_checked (kind : CheckedText) (content : String) :
    (AttributeType.checked kind).Fixes (.checked kind content) := by
  intro memory
  refine ⟨.checked kind content, ?_, rfl⟩
  rw [AttributeType.coerce.eq_def]
  dsimp only
  rw [if_pos rfl]
  rfl

theorem fixes_of_has {value : Value} (has : type.Has value) :
    type.Fixes value := by
  induction type generalizing value with
  | string alternative =>
    intro memory
    refine ⟨value, ?_, rfl⟩
    rw [AttributeType.coerce.eq_def]
    cases value with
    | text | member | checked => rfl
    | _ => cases has
  | bool =>
    obtain ⟨truth, rfl⟩ := has
    exact fun memory => ⟨.bool truth, rfl, rfl⟩
  | integer unsigned =>
    obtain ⟨number, rfl, atLeast⟩ := has
    intro memory
    refine ⟨.int number, ?_, rfl⟩
    have fits : checkMinimum unsigned number = .ok (.int number) :=
      checkMinimum_eq_ok.mpr ⟨rfl, atLeast⟩
    rw [AttributeType.coerce.eq_def]
    dsimp only [Value.content?]
    rw [fits]
    rfl
  | real =>
    obtain ⟨number, identity, rfl⟩ := has
    exact fun memory => ⟨.real number identity, rfl, rfl⟩
  | vocabulary words =>
    obtain ⟨word, member, rfl⟩ := has
    exact fixes_member (vocabulary_of_mem_members member)
  | checked kind =>
    obtain ⟨content, rfl, -⟩ := has
    exact fixes_checked kind content
  | spaced container item ih =>
    obtain ⟨items, rfl, apart, each⟩ := has
    exact fixes_collection apart fun found member => ih (each found member)

/-! ## What is read or fitted is a value of the type -/

theorem collect_has (each : ∀ found ∈ values, item.Has found) :
    (AttributeType.spaced container item).Has (container.collect values) := by
  obtain ⟨items, collected, apart, among⟩ := exists_collect_eq container values
  exact ⟨items, collected, apart, fun found member => each found (among found member)⟩

theorem parse_has {literal : String} {value : Value}
    (parsed : type.parse literal = .ok value) : type.Has value := by
  induction type generalizing literal value with
  | checked kind =>
    rw [AttributeType.parse, map_eq_ok] at parsed
    obtain ⟨_, passed, rfl⟩ := parsed
    exact ⟨literal, rfl, passed⟩
  | spaced container item ih =>
    rw [AttributeType.parse, map_eq_ok] at parsed
    obtain ⟨values, each, rfl⟩ := parsed
    refine collect_has fun value member => ?_
    obtain ⟨part, _, readPart⟩ := exists_left_of_mem (mapM_eq_ok.mp each) member
    exact ih readPart
  | string | bool | integer | real | vocabulary => exact parse_admits parsed

section

variable {memory after : Memory} {value result : Value}

/-- Whatever is fitted to a type of strings, truth values or numbers becomes one. -/
theorem coerce_admits (single : type.layers = 0) (wordless : ¬ type.Textual)
    (fitted : (type.coerce value).run memory = .ok (result, after)) : type.Admits result := by
  rw [AttributeType.coerce.eq_def] at fitted
  cases type with
  | string alternative =>
    dsimp only at fitted
    split at fitted
    · exact absurd fitted run_wrongType_ne_ok
    · exact absurd fitted run_wrongType_ne_ok
    · split at fitted
      · next isText =>
        obtain ⟨rfl, -⟩ := run_pure_eq_ok.mp fitted
        exact isText
      · obtain ⟨shown, between, -, same⟩ := run_bind_eq_ok.mp fitted
        obtain ⟨rfl, -⟩ := run_pure_eq_ok.mp same
        rfl
  | bool =>
    dsimp only at fitted
    split at fitted
    · exact parse_admits (run_parseContent_eq_ok.mp fitted).1
    · next truth _ =>
      obtain ⟨rfl, -⟩ := run_pure_eq_ok.mp fitted
      exact ⟨truth, rfl⟩
    · exact absurd fitted run_wrongType_ne_ok
  | integer unsigned =>
    dsimp only at fitted
    split at fitted
    · exact parse_admits (run_parseContent_eq_ok.mp fitted).1
    · exact checkMinimum_admits (mapError_eq_ok.mp (run_lift_eq_ok.mp fitted).1)
    · exact absurd fitted run_wrongType_ne_ok
  | real =>
    dsimp only at fitted
    split at fitted
    · exact parse_admits (run_parseContent_eq_ok.mp fitted).1
    · obtain ⟨number, between, -, same⟩ := run_bind_eq_ok.mp fitted
      obtain ⟨rfl, -⟩ := run_pure_eq_ok.mp same
      exact ⟨number, none, rfl⟩
    · next number identity _ =>
      obtain ⟨rfl, -⟩ := run_pure_eq_ok.mp fitted
      exact ⟨number, identity, rfl⟩
    · exact absurd fitted run_wrongType_ne_ok
  | vocabulary | checked => exact absurd trivial wordless
  | spaced => cases single

theorem coerce_fixes
    (fitted : (type.coerce value).run memory = .ok (result, after)) : type.Fixes result := by
  induction type generalizing value memory result after with
  | vocabulary words =>
    obtain ⟨-, ⟨word, rfl, own, rfl⟩ | ⟨-, content, -, parsed⟩⟩ := coerce_vocabulary_eq_ok fitted
    · exact fixes_member own
    · exact fixes_of_has (parse_has parsed)
  | checked kind =>
    obtain ⟨-, content, -, ⟨rfl, rfl⟩ | parsed⟩ := coerce_checked_eq_ok fitted
    · exact fixes_checked kind content
    · exact fixes_of_has (parse_has parsed)
  | spaced container item ih =>
    rcases coerce_spaced_eq_ok fitted with
      ⟨content, -, -, parsed⟩ | ⟨course, begun, results, -, -, fittedAll, rfl⟩
    · exact fixes_of_has (parse_has parsed)
    · obtain ⟨items, collected, apart, among⟩ := exists_collect_eq container results
      rw [collected]
      refine fixes_collection apart fun found member => ?_
      obtain ⟨part, before, behind, fittedPart, -⟩ := fittedAll.exists_of_mem (among found member)
      exact ih fittedPart
  | string | bool | integer | real =>
    exact fixes_of_has (coerce_admits rfl id fitted)

/-- What is fitted to a type of known words is a value of it, if all the values that the type took
as they were are what their classes say. -/
theorem coerce_has (known : type.Known)
    (fitted : (type.coerce value).run memory = .ok (result, after))
    (genuine : ∀ level found, Contains (.value value) memory level found → type.Takes found →
      found.Genuine) :
    type.Has result := by
  induction type generalizing value memory result after with
  | vocabulary words =>
    obtain ⟨-, ⟨word, rfl, own, rfl⟩ | ⟨-, content, -, parsed⟩⟩ := coerce_vocabulary_eq_ok fitted
    · exact admits_member known (genuine 0 _ .self own) own
    · exact parse_has parsed
  | checked kind =>
    obtain ⟨-, content, -, ⟨rfl, rfl⟩ | parsed⟩ := coerce_checked_eq_ok fitted
    · exact ⟨content, rfl, genuine 0 _ .self rfl⟩
    · exact parse_has parsed
  | spaced container item ih =>
    rcases coerce_spaced_eq_ok fitted with
      ⟨content, -, -, parsed⟩ | ⟨course, begun, results, divided, opened, fittedAll, rfl⟩
    · exact parse_has parsed
    · refine collect_has fun found member => ?_
      obtain ⟨part, before, behind, fittedPart, within⟩ := fittedAll.exists_of_mem member
      refine ih known fittedPart fun level inner contained takes => ?_
      -- A type that takes anything as it is goes through all of the items before this one.
      have inside : Contains course begun level inner :=
        within takes.textual.goesThrough level inner contained
      exact genuine (level + 1) inner (.part divided opened inside) takes
  | string | bool | integer | real =>
    exact coerce_admits rfl id fitted

end

/-- What a class makes of a text is what the class says. -/
theorem genuine_of_checkedOf {kind : CheckedText} {argument made : Value}
    (isText : argument.content?.isSome = true) (done : checkedOf kind argument = .ok made) :
    made.Genuine := by
  obtain ⟨content, found⟩ := Option.isSome_iff_exists.mp isText
  rw [checkedOf, found] at done
  dsimp only at done
  split at done
  · next passed =>
    cases done
    exact passed
  · cases done

theorem run_coerce_text (type : AttributeType) (literal : String) (memory : Memory) :
    (type.coerce (.text literal)).run memory =
      ((type.parse literal).mapError Failure.rejected).map (·, memory) := by
  rw [coerce_text, AttributeType.parseContent]
  cases type.parse literal <;> rfl

/-- Reading and fitting give values of the type, and fitting leaves the values of the type alone.
A class can make a text that fails its own check, but not out of a text. -/
theorem fitting_is_a_retraction {spec : TypeSpec} {type : AttributeType}
    (resolved : spec.resolve = .ok type) :
    (∀ literal value, type.parse literal = .ok value → type.Has value) ∧
    (∀ value memory result after, (type.coerce value).run memory = .ok (result, after) →
      (∀ level found, Contains (.value value) memory level found → type.Takes found →
        found.Genuine) →
      type.Has result) ∧
    (∀ value, type.Has value → type.Fixes value) ∧
    (∀ value memory result after, (type.coerce value).run memory = .ok (result, after) →
      type.Fixes result) ∧
    (∀ literal memory, (type.coerce (.text literal)).run memory =
      ((type.parse literal).mapError Failure.rejected).map (·, memory)) ∧
    ∀ kind argument made, argument.content?.isSome = true → checkedOf kind argument = .ok made →
      made.Genuine :=
  ⟨fun _ _ => parse_has,
    fun _ _ _ _ fitted genuine => coerce_has (resolve_known spec type resolved) fitted genuine,
    fun _ => fixes_of_has,
    fun _ _ _ _ => coerce_fixes,
    run_coerce_text type,
    fun _ _ _ => genuine_of_checkedOf⟩

namespace Retraction

def idSets : TypeSpec := .mk "SpacedList" [.mk "SpacedSet" [.mk "Id" []]]

def idSetsType : AttributeType := .spaced .list (.spaced .set (.checked .id))

/-- An identifier in the place of a set, then a tuple of a class name and an identifier. -/
def mixedNames : Value :=
  .list [.checked .id "a", .tuple [.checked .className "b", .checked .id "c"]]

/-- A checked text made of a list of names is its written form. -/
theorem checkedOf_names (kind : CheckedText) :
    checkedOf kind (.list [.text "a", .text "b"]) = .ok (.checked kind "['a', 'b']") := by
  have checkedItems : yields (fun _ => true)
      (checkNameItems kind (.list [.text "a", .text "b"])) = true := by
    cases kind <;> rfl
  have written : yields (fun text => text == "['a', 'b']")
      (Value.list [.text "a", .text "b"]).shown = true := rfl
  obtain ⟨⟨⟩, passed, -⟩ := exists_of_yields checkedItems
  obtain ⟨text, shown, same⟩ := exists_of_yields written
  obtain rfl : text = "['a', 'b']" := eq_of_beq same
  rw [checkedOf, show (Value.list [.text "a", .text "b"]).content? = none from rfl]
  dsimp only
  rw [passed, shown]
  rfl

theorem mixedNames_genuine {memory : Memory} {level : Nat} {found : Value}
    (contained : Contains (.value mixedNames) memory level found) (takes : idSetsType.Takes found) :
    found.Genuine := by
  have first : CheckedText.check .id "a" = .ok () := rfl
  have last : CheckedText.check .id "c" = .ok () := rfl
  cases contained with
  | self => cases takes
  | part _ opened inside =>
    obtain ⟨rfl, rfl⟩ := opened.unique (.items rfl)
    cases inside with
    | first inside =>
      obtain ⟨rfl, -⟩ := inside.of_whole rfl
      exact first
    | further _ inside =>
      cases inside with
      | further _ none => cases none
      | first inside =>
        cases inside with
        | self => cases takes
        | part _ openedTuple inTuple =>
          obtain ⟨rfl, rfl⟩ := openedTuple.unique (.items rfl)
          have member := inTuple.mem_of_row (by simp [Value.isWhole, Value.content?])
          rcases List.mem_cons.mp member with rfl | member
          · cases takes
          · rw [List.mem_singleton.mp member]
            exact last

end Retraction

open Retraction

/-- Identifiers are taken as they are, read as sets, and made of class names. -/
theorem mixedNames_are_retracted :
    ∃ result after, (idSetsType.coerce mixedNames).run (.start []) = .ok (result, after) ∧
      idSetsType.Has result ∧ idSetsType.Fixes result := by
  have resolved : idSets.resolve = .ok idSetsType := rfl
  have runs : yields (fun _ => true) ((idSetsType.coerce mixedNames).run (.start [])) = true := rfl
  obtain ⟨-, has, -, fixes, -⟩ := fitting_is_a_retraction resolved
  obtain ⟨⟨result, after⟩, fitted, -⟩ := exists_of_yields runs
  exact ⟨result, after, fitted,
    has mixedNames _ _ _ fitted fun level found => mixedNames_genuine,
    fixes mixedNames _ _ _ fitted⟩

/-- A list of names is checked name by name, and the identifier made of it starts with a bracket. -/
theorem listedId_is_not_an_id :
    checkedOf .id (.list [.text "a", .text "b"]) = .ok (.checked .id "['a', 'b']") ∧
      ((AttributeType.checked .id).coerce (.checked .id "['a', 'b']")).run (.start []) =
        .ok (.checked .id "['a', 'b']", .start []) ∧
      ¬ (AttributeType.checked .id).Has (.checked .id "['a', 'b']") := by
  refine ⟨checkedOf_names .id, rfl, ?_⟩
  rintro ⟨content, same, passed⟩
  cases same
  have fails : CheckedText.check .id "['a', 'b']" ≠ .ok () := by decide
  exact fails passed

end TypedMarkup
