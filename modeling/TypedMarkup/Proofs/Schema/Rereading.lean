import Mathlib.Data.List.Perm.Basic
import TypedMarkup.Proofs.Document.StartTag
import TypedMarkup.Proofs.Number.Decimal
import TypedMarkup.Proofs.Schema.Length
import TypedMarkup.Proofs.Schema.Retraction
import TypedMarkup.Proofs.Schema.Solid

/-!
Contract: values are read back from their texts.

Owns: `AttributeType.ReadsSolid`, the values that a type reads from solid texts, as collections read
their parts. Such values agree only if they are equal, have texts of their own, and are read back
from them. So a collection of them is read back from its text: a list as it is, a set in the order
of its texts.
-/

namespace TypedMarkup

open Host Text

variable {value left right : Value} {type : AttributeType}

/-! ## Texts of values -/

theorem displays_eq_map (values : List Value) : displays values = values.map Value.display := by
  induction values with
  | nil => rfl
  | cons value rest ih =>
    exact congrArg (value.display :: ·) ih

/-- The text of a collection has the texts of its values in it, in ascending order for a set. -/
def Container.texts (container : Container) (values : List Value) : List String :=
  match container with
  | set => sortNames (values.map Value.display)
  | list => values.map Value.display

theorem display_spaced (container : Container) (values : List Value) :
    (Value.spaced container values).display = " ".intercalate (container.texts values) := by
  cases container with
  | set => exact congrArg (fun texts => " ".intercalate (sortNames texts)) (displays_eq_map values)
  | list => exact congrArg " ".intercalate (displays_eq_map values)

theorem Container.texts_perm (container : Container) (values : List Value) :
    (container.texts values).Perm (values.map Value.display) := by
  cases container with
  | set => exact List.mergeSort_perm _ _
  | list => exact List.Perm.refl _

theorem display_singleton (container : Container) (value : Value) :
    (Value.spaced container [value]).display = value.display := by
  have alone : container.texts [value] = [value.display] :=
    List.perm_singleton.mp (container.texts_perm [value])
  rw [display_spaced, alone, String.intercalate_singleton]

theorem content?_eq_display (isText : value.content?.isSome = true) :
    value.content? = some value.display := by
  cases value with
  | text | checked | member => rfl
  | _ => cases isText

/-! ## Values that agree -/

theorem agrees_of_content? {first second : String}
    (leftContent : left.content? = some first) (rightContent : right.content? = some second) :
    left.agrees right = (first == second) := by
  cases left with
  | text | checked | member =>
    cases leftContent
    cases right with
    | text | checked | member =>
      cases rightContent
      simp [Value.agrees, Value.sameNaN, Value.equal, Value.equalPlain, Value.numeric?,
        Value.content?]
    | _ => cases rightContent
  | _ => cases leftContent

/-- A value without real numbers in it agrees with itself. -/
theorem agrees_self (unreal : type.innermost ≠ .real)
    (has : type.Has value) : value.agrees value = true := by
  induction type generalizing value with
  | string alternative =>
    rw [agrees_of_content? (content?_eq_display has) (content?_eq_display has), beq_self_eq_true]
  | bool =>
    obtain ⟨truth, rfl⟩ := has
    rw [Value.agrees, equal_eq_same rfl rfl]
    exact beq_self_eq_true _
  | integer unsigned =>
    obtain ⟨number, rfl, -⟩ := has
    rw [Value.agrees, equal_eq_same rfl rfl]
    exact beq_self_eq_true number
  | real => exact absurd rfl unreal
  | vocabulary words =>
    obtain ⟨word, -, rfl⟩ := has
    rw [agrees_of_content? rfl rfl, beq_self_eq_true]
  | checked kind =>
    obtain ⟨content, rfl, -⟩ := has
    rw [agrees_of_content? rfl rfl, beq_self_eq_true]
  | spaced container item ih =>
    obtain ⟨items, rfl, -, each⟩ := has
    cases container with
    | list =>
      rw [spacedList_agrees_iff, List.forall₂_same]
      exact fun found member => ih unreal (each found member)
    | set =>
      rw [spacedSet_agrees_iff]
      exact ⟨rfl, fun found member =>
        ⟨found, member, ih unreal (each found member)⟩⟩

theorem AttributeType.Same.refl (has : type.Has value) :
    type.Same value value := by
  induction type generalizing value with
  | spaced container item ih =>
    obtain ⟨items, rfl, -, each⟩ := has
    refine ⟨items, items, items, rfl, rfl, ?_, List.forall₂_same.mpr fun found member =>
      ih (each found member)⟩
    cases container with
    | set => exact List.Perm.refl _
    | list => exact rfl
  | _ => exact rfl

/-! ## Values read from solid texts -/

theorem readInteger?_display {text : String} {number : Int}
    (found : Number.readInteger? text = some number) :
    Number.readInteger? (trim (Value.int number).display) = some number := by
  have short := natAbs_lt_of_readInteger? found
  unfold longNumber at short
  exact Number.readInteger?_toString (lt_powTen Number.digitLimit (by decide) short)

namespace AttributeType

def ReadsSolid (type : AttributeType) (value : Value) : Prop :=
  ∃ text, Solid text ∧ type.parse text = .ok value

theorem readsSolid_spaced {container : Container} {item : AttributeType} :
    (spaced container item).ReadsSolid value ↔
      ∃ found, item.ReadsSolid found ∧ value = .spaced container [found] := by
  constructor
  · rintro ⟨text, solid, parsed⟩
    obtain ⟨found, here, rfl⟩ := (parse_spaced_of_solid solid).mp parsed
    exact ⟨found, ⟨text, solid, here⟩, rfl⟩
  · rintro ⟨found, ⟨text, solid, here⟩, rfl⟩
    exact ⟨text, solid, (parse_spaced_of_solid solid).mpr ⟨found, here, rfl⟩⟩

/-- Whatever literal a single value was read from, it is read back from its text, and that is the
literal, unless the value is a number. -/
theorem parse_display_of_single (single : type.layers = 0)
    (unreal : type.innermost ≠ .real) (untrue : type.innermost ≠ .bool) {literal : String}
    (parsed : type.parse literal = .ok value) :
    type.parse value.display = .ok value ∧
      (value.display = literal ∨ ∃ number, value = .int number) := by
  cases type with
  | string alternative =>
    cases parsed
    exact ⟨rfl, .inl rfl⟩
  | integer unsigned =>
    rw [parse] at parsed
    split at parsed
    · next number found =>
      obtain ⟨rfl, atLeast⟩ := checkMinimum_eq_ok.mp parsed
      refine ⟨?_, .inr ⟨number, rfl⟩⟩
      rw [parse, readInteger?_display found]
      exact parsed
    · cases parsed
  | vocabulary words =>
    rw [parse] at parsed
    split at parsed
    · next word found =>
      cases parsed
      have same : (Value.member word).display = literal := text_of_ofText? found
      rw [same, parse, found]
      exact ⟨rfl, .inl rfl⟩
    · cases parsed
  | checked kind =>
    obtain ⟨_, -, rfl⟩ := map_eq_ok.mp parsed
    exact ⟨parsed, .inl rfl⟩
  | bool => exact absurd rfl untrue
  | real => exact absurd rfl unreal
  | spaced => cases single

theorem ReadsSolid.has (reads : type.ReadsSolid value) :
    type.Has value := by
  obtain ⟨text, -, parsed⟩ := reads
  exact parse_has parsed

/-- A value read from a solid text is read back from its own text, which is solid too. -/
theorem ReadsSolid.display (unreal : type.innermost ≠ .real)
    (untrue : type.innermost ≠ .bool) (reads : type.ReadsSolid value) :
    Solid value.display ∧ type.parse value.display = .ok value := by
  induction type generalizing value with
  | spaced container item ih =>
    obtain ⟨found, readsItem, rfl⟩ := readsSolid_spaced.mp reads
    obtain ⟨solid, parsed⟩ := ih unreal untrue readsItem
    rw [display_singleton]
    exact ⟨solid, (parse_spaced_of_solid solid).mpr ⟨found, parsed, rfl⟩⟩
  | _ =>
    obtain ⟨text, solid, parsed⟩ := reads
    obtain ⟨again, written⟩ := parse_display_of_single rfl unreal untrue parsed
    refine ⟨?_, again⟩
    rcases written with same | ⟨number, rfl⟩
    · rwa [same]
    · exact Number.toString_solid number

section

variable (unreal : type.innermost ≠ .real) (leftReads : type.ReadsSolid left)
  (rightReads : type.ReadsSolid right)

include unreal leftReads rightReads

/-- Values read from solid texts have different texts. -/
theorem ReadsSolid.eq_of_display_eq (same : left.display = right.display) : left = right := by
  induction type generalizing left right with
  | spaced container item ih =>
    obtain ⟨first, firstReads, rfl⟩ := readsSolid_spaced.mp leftReads
    obtain ⟨second, secondReads, rfl⟩ := readsSolid_spaced.mp rightReads
    rw [display_singleton, display_singleton] at same
    rw [ih unreal firstReads secondReads same]
  | bool =>
    obtain ⟨first, rfl⟩ := leftReads.has
    obtain ⟨second, rfl⟩ := rightReads.has
    cases first <;> cases second
    · rfl
    · exact absurd same (by decide)
    · exact absurd same (by decide)
    · rfl
  | _ =>
    have first := (leftReads.display unreal (fun other => by cases other)).2
    have second := (rightReads.display unreal (fun other => by cases other)).2
    rw [same, second] at first
    cases first
    rfl

theorem ReadsSolid.eq_of_texts (agrees : left.agrees right = true)
    (leftText : left.content?.isSome = true) (rightText : right.content?.isSome = true) :
    left = right := by
  rw [agrees_of_content? (content?_eq_display leftText) (content?_eq_display rightText)] at agrees
  exact leftReads.eq_of_display_eq unreal rightReads (eq_of_beq agrees)

/-- Values read from solid texts agree only if they are equal. -/
theorem ReadsSolid.agrees_iff : left.agrees right = true ↔ left = right := by
  refine ⟨fun agrees => ?_, fun same => same ▸ agrees_self unreal leftReads.has⟩
  induction type generalizing left right with
  | spaced container item ih =>
    obtain ⟨first, firstReads, rfl⟩ := readsSolid_spaced.mp leftReads
    obtain ⟨second, secondReads, rfl⟩ := readsSolid_spaced.mp rightReads
    have agreeInside : first.agrees second = true := by
      cases container with
      | list => simpa [spacedList_agrees_iff] using agrees
      | set => simpa [spacedSet_agrees_iff] using agrees
    rw [ih unreal firstReads secondReads agreeInside]
  | bool =>
    obtain ⟨first, rfl⟩ := leftReads.has
    obtain ⟨second, rfl⟩ := rightReads.has
    rw [Value.agrees, equal_eq_same rfl rfl] at agrees
    cases first <;> cases second
    · rfl
    · cases agrees
    · cases agrees
    · rfl
  | integer unsigned =>
    obtain ⟨first, rfl, -⟩ := leftReads.has
    obtain ⟨second, rfl, -⟩ := rightReads.has
    rw [Value.agrees, equal_eq_same rfl rfl] at agrees
    have same : first = second := eq_of_beq agrees
    rw [same]
  | real => exact absurd rfl unreal
  | string alternative =>
    exact leftReads.eq_of_texts unreal rightReads agrees leftReads.has rightReads.has
  | vocabulary words =>
    obtain ⟨_, -, rfl⟩ := leftReads.has
    obtain ⟨_, -, rfl⟩ := rightReads.has
    exact leftReads.eq_of_texts unreal rightReads agrees rfl rfl
  | checked kind =>
    obtain ⟨_, rfl, -⟩ := leftReads.has
    obtain ⟨_, rfl, -⟩ := rightReads.has
    exact leftReads.eq_of_texts unreal rightReads agrees rfl rfl

end

end AttributeType

theorem toldApart_iff_nodup (unreal : type.innermost ≠ .real)
    {values : List Value} (reads : ∀ value ∈ values, type.ReadsSolid value) :
    ToldApart values ↔ values.Nodup := by
  refine List.Pairwise.iff_of_mem fun {earlier later} earlierMember laterMember => ?_
  rw [← Bool.not_eq_true, (reads later laterMember).agrees_iff unreal (reads earlier earlierMember)]
  exact ne_comm

/-! ## Collections are read back -/

namespace AttributeType

/-- A value can be written, and a value that is the same is read from its text. -/
def ReadsBack (type : AttributeType) (value : Value) : Prop :=
  ∃ text again, value.shown = .ok text ∧ type.parse text = .ok again ∧ type.Same value again ∧
    value.equal again = true

/-- A value that is read back exactly. -/
structure Rereads (type : AttributeType) (value : Value) : Prop where
  writable : value.obstacle? = none
  solid : Solid value.display
  parsed : type.parse value.display = .ok value

theorem Rereads.readsSolid (rereads : type.Rereads value) :
    type.ReadsSolid value :=
  ⟨value.display, rereads.solid, rereads.parsed⟩

end AttributeType

theorem shown_of_obstacle? (writable : value.obstacle? = none) :
    value.shown = .ok value.display := by
  rw [Value.shown, writable]
  rfl

section

variable {container : Container} {item : AttributeType} {items : List Value}

/-- A collection of values that are read back exactly is read back but for the order of a set: the
values of a set come in the order of their texts. -/
theorem parse_display_of_items (unreal : item.innermost ≠ .real)
    (rereads : ∀ found ∈ items, item.Rereads found) (apart : container = .set → ToldApart items) :
    ∃ met, container.Rearranges items met ∧
      (AttributeType.spaced container item).parse (Value.spaced container items).display =
        .ok (.spaced container met) := by
  have readEach : List.Forall₂ (fun text found => item.parse text = .ok found)
      (items.map Value.display) items := by
    rw [List.forall₂_map_left_iff, List.forall₂_same]
    exact fun found member => (rereads found member).parsed
  have solid : ∀ text ∈ container.texts items, Solid text := by
    intro text member
    obtain ⟨found, foundMember, rfl⟩ :=
      List.mem_map.mp ((container.texts_perm items).mem_iff.mp member)
    exact (rereads found foundMember).solid
  rw [display_spaced, AttributeType.parse, fields_intercalate solid]
  cases container with
  | list => exact ⟨items, rfl, map_eq_ok.mpr ⟨items, mapM_eq_ok.mpr readEach, rfl⟩⟩
  | set =>
    -- Reading follows the texts, so the values come in the order of their texts.
    obtain ⟨met, readMet, permuted⟩ :=
      List.perm_comp_forall₂ (Container.texts_perm .set items) readEach
    have reads : ∀ found ∈ items, item.ReadsSolid found :=
      fun found member => (rereads found member).readsSolid
    have metApart : ToldApart met := by
      rw [toldApart_iff_nodup unreal fun found member => reads found (permuted.mem_iff.mp member),
        permuted.nodup_iff, ← toldApart_iff_nodup unreal reads]
      exact apart rfl
    refine ⟨met, permuted.symm, map_eq_ok.mpr ⟨met, mapM_eq_ok.mpr readMet, ?_⟩⟩
    exact collect_eq fun _ => metApart

theorem sameNaN_eq_false (unreal : type.innermost ≠ .real)
    (has : type.Has value) (other : Value) : value.sameNaN other = false := by
  cases value with
  | real number identity =>
    cases type with
    | real => exact absurd rfl unreal
    | string => cases has
    | _ => obtain ⟨_, _, _⟩ := has <;> contradiction
  | _ => rfl

theorem equal_of_same (unreal : type.innermost ≠ .real) {again : Value}
    (has : type.Has value) (same : type.Same value again) : value.equal again = true := by
  have agrees : value.agrees again = true := by
    rw [← (AttributeType.Same.refl has).agrees_eq same]
    exact agrees_self unreal has
  rwa [Value.agrees, sameNaN_eq_false unreal has, Bool.false_or] at agrees

theorem readsBack_of_items (unreal : item.innermost ≠ .real)
    (rereads : ∀ found ∈ items, item.Rereads found) (apart : container = .set → ToldApart items) :
    (AttributeType.spaced container item).ReadsBack (.spaced container items) := by
  have has : ∀ found ∈ items, item.Has found :=
    fun found member => (rereads found member).readsSolid.has
  have unrealItems : (AttributeType.spaced container item).innermost ≠ .real := unreal
  obtain ⟨met, rearranged, parsed⟩ := parse_display_of_items unreal rereads apart
  have same : (AttributeType.spaced container item).Same (.spaced container items)
      (.spaced container met) :=
    ⟨items, met, met, rfl, rfl, rearranged, List.forall₂_same.mpr fun found member =>
      .refl (has found (rearranged.mem_iff.mpr member))⟩
  have writable : (Value.spaced container items).obstacle? = none := by
    rw [Value.obstacle?, obstacleAmong?_eq_none]
    exact fun found member => (rereads found member).writable
  exact ⟨_, _, shown_of_obstacle? writable, parsed, same,
    equal_of_same unrealItems ⟨items, rfl, apart, has⟩ same⟩

end

theorem readsBack_of_parse (unreal : type.innermost ≠ .real)
    (untrue : type.innermost ≠ .bool) {literal : String}
    (parsed : type.parse literal = .ok value) : type.ReadsBack value := by
  cases type with
  | spaced container item =>
    have unrealItem : item.innermost ≠ .real := unreal
    obtain ⟨values, readAll, rfl⟩ := map_eq_ok.mp parsed
    obtain ⟨items, collected, apart, among⟩ := exists_collect_eq container values
    rw [collected]
    refine readsBack_of_items unrealItem (fun found member => ?_) apart
    obtain ⟨part, partMember, readPart⟩ :=
      exists_left_of_mem (mapM_eq_ok.mp readAll) (among found member)
    have reads : item.ReadsSolid found := ⟨part, solid_of_mem_fields partMember, readPart⟩
    obtain ⟨solid, again⟩ := reads.display unrealItem untrue
    exact ⟨obstacle?_of_parse readPart, solid, again⟩
  | _ =>
    obtain ⟨again, -⟩ := AttributeType.parse_display_of_single rfl unreal untrue parsed
    have has := parse_has parsed
    exact ⟨_, value, shown_of_obstacle? (obstacle?_of_parse parsed), again, .refl has,
      equal_of_same unreal has (.refl has)⟩

/-- Identifiers, class names and words are solid, so all of them are read back. -/
theorem rereads_of_has {item : AttributeType} (known : item.Known)
    (named : item = .checked .id ∨ item = .checked .className ∨ ∃ words, item = .vocabulary words)
    (has : item.Has value) : item.Rereads value := by
  rcases named with rfl | rfl | ⟨words, rfl⟩
  · obtain ⟨content, rfl, passed⟩ := has
    exact ⟨rfl, checkName_solid passed, map_eq_ok.mpr ⟨(), passed, rfl⟩⟩
  · obtain ⟨content, rfl, passed⟩ := has
    exact ⟨rfl, checkName_solid passed, map_eq_ok.mpr ⟨(), passed, rfl⟩⟩
  · obtain ⟨word, member, rfl⟩ := has
    refine ⟨rfl, word_solid known member, ?_⟩
    have found : words.ofText? (Value.member word).display = some word := ofText?_text known member
    rw [AttributeType.parse, found]

/-- A value read from a literal is read back from its text. So is a collection of identifiers, class
names or words that any value was fitted to, if the names that were taken as they were are what
their classes say. -/
theorem texts_are_read_back {spec : TypeSpec} {type : AttributeType}
    (resolved : spec.resolve = .ok type) (unreal : type.innermost ≠ .real)
    (untrue : type.innermost ≠ .bool) :
    (∀ literal value, type.parse literal = .ok value → type.ReadsBack value) ∧
    ∀ container item, type = .spaced container item →
      (item = .checked .id ∨ item = .checked .className ∨ ∃ words, item = .vocabulary words) →
      ∀ value memory result after, (type.coerce value).run memory = .ok (result, after) →
        (∀ level found, Contains (.value value) memory level found → type.Takes found →
          found.Genuine) →
        type.ReadsBack result := by
  refine ⟨fun _ _ => readsBack_of_parse unreal untrue, ?_⟩
  rintro container item rfl named value memory result after fitted genuine
  have known := resolve_known spec _ resolved
  have itemKnown : item.Known := known
  obtain ⟨items, rfl, apart, each⟩ := coerce_has known fitted genuine
  refine readsBack_of_items unreal (fun found member => ?_) apart
  exact rereads_of_has itemKnown named (each found member)

namespace Rereading

def numberSets : TypeSpec := .mk "SpacedList" [.mk "SpacedSet" [.mk "isize" []]]

def numberSetsType : AttributeType := .spaced .list (.spaced .set (.integer false))

def classListType : AttributeType := .spaced .set (.checked .className)

def mixedClasses : Value := .tuple [.checked .className "b", .checked .id "a", .text "c-1"]

def listedClass : Value := .checked .className "['a', 'b']"

theorem mixedClasses_genuine {memory : Memory} {level : Nat} {found : Value}
    (contained : Contains (.value mixedClasses) memory level found)
    (takes : classListType.Takes found) : found.Genuine := by
  have passed : CheckedText.check .className "b" = .ok () := rfl
  cases contained with
  | self => cases takes
  | part _ opened inside =>
    obtain ⟨rfl, rfl⟩ := opened.unique (.items rfl)
    have member := inside.mem_of_row (by simp [Value.isWhole, Value.content?])
    simp only [List.mem_cons, List.not_mem_nil, or_false] at member
    rcases member with rfl | rfl | rfl
    · exact passed
    · cases takes
    · cases takes

end Rereading

open Retraction Rereading

/-- Numbers are read in any spelling and read back from one, and class names are read back in
ascending order. -/
theorem numbers_and_classes_are_read_back :
    (∃ value, numberSetsType.parse " +10 -0_7\t010 " = .ok value ∧ numberSetsType.ReadsBack value) ∧
    ∃ result after, (classListType.coerce mixedClasses).run (.start []) = .ok (result, after) ∧
      classListType.ReadsBack result := by
  have numbers : numberSets.resolve = .ok numberSetsType := rfl
  have classes : (TypeSpec.mk "ClassList" []).resolve = .ok classListType := rfl
  have reads : yields (fun _ => true) (numberSetsType.parse " +10 -0_7\t010 ") = true := rfl
  have fits : yields (fun _ => true)
      ((classListType.coerce mixedClasses).run (.start [])) = true := rfl
  obtain ⟨value, parsed, -⟩ := exists_of_yields reads
  obtain ⟨⟨result, after⟩, fitted, -⟩ := exists_of_yields fits
  refine ⟨⟨value, parsed, ?_⟩, result, after, fitted, ?_⟩
  · exact (texts_are_read_back numbers (by decide) (by decide)).1 _ value parsed
  · exact (texts_are_read_back classes (by decide) (by decide)).2 .set _ rfl (.inr (.inl rfl))
      mixedClasses _ _ _ fitted fun _ _ => mixedClasses_genuine

/-- A class name that is the written form of a list has a blank in it, and its parts are no class
names. -/
theorem listedClass_is_not_read_back :
    checkedOf .className (.list [.text "a", .text "b"]) = .ok listedClass ∧
      (classListType.coerce (.list [listedClass])).run (.start []) =
        .ok (.spaced .set [listedClass], .start []) ∧
      ¬ classListType.ReadsBack (.spaced .set [listedClass]) := by
  refine ⟨checkedOf_names .className, rfl, ?_⟩
  rintro ⟨text, again, shown, parsed, -⟩
  rw [shown_of_obstacle? rfl, display_singleton] at shown
  cases shown
  have fails : yields (fun _ => true) (classListType.parse "['a', 'b']") = false := rfl
  cases fails.symm.trans (congrArg (yields fun _ => true) parsed)

end TypedMarkup
