import TypedMarkup.Proofs.Document.Histories
import TypedMarkup.Proofs.Plan.TagNames

/-!
Contract: the order in which an element lists its typed attributes.

Owns: `Document.ElementOf.listedKeys`, the keys of the attributes that are listed, `Crosses`, the
pairs of keys whose written names stand the other way round, and the theorem that the names of an
element go up exactly if no two of its keys cross, after any changes.

Attributes are sorted by key and written with dashes. A dash comes before the digits and the capital
letters, and the underscore that it stands for comes behind them, so the order of the keys is not
always the order of the names.
-/

namespace TypedMarkup

/-! ## Keys and names -/

/-- The second of two keys has an underscore where they part, and the first a character between the
dash and the underscore. -/
def Crosses : List Char → List Char → Prop
  | first :: rest, second :: more =>
    if first = second then Crosses rest more
    else '-' < first ∧ first < second ∧ second = '_'
  | _, _ => False

/-- How a character of a key is written. -/
def dashedCharacter (character : Char) : Char := if character == '_' then '-' else character

theorem dashedCharacter_of_ne {character : Char} (other : character ≠ '_') :
    dashedCharacter character = character := if_neg (mt eq_of_beq other)

/-- Two characters of keys keep their order, unless the second is an underscore and the first stands
behind the dash. -/
theorem dashedCharacter_cases {first second : Char} (noDash : first ≠ '-')
    (below : first < second) :
    (dashedCharacter first < dashedCharacter second ∧ ¬ ('-' < first ∧ second = '_')) ∨
      (dashedCharacter second < dashedCharacter first ∧ '-' < first ∧ second = '_') := by
  by_cases secondDashed : second = '_'
  · subst secondDashed
    rw [dashedCharacter_of_ne (Char.ne_of_lt below), show dashedCharacter '_' = '-' from rfl]
    by_cases behind : '-' < first
    · exact .inr ⟨behind, behind, rfl⟩
    · exact .inl ⟨Std.lt_of_le_of_ne (Char.not_lt.mp behind) noDash,
        fun crossed => behind crossed.1⟩
  · refine .inl ⟨?_, fun crossed => secondDashed crossed.2⟩
    rw [dashedCharacter_of_ne secondDashed]
    by_cases firstDashed : first = '_'
    · subst firstDashed
      exact Char.lt_trans (by decide : '-' < '_') below
    · rwa [dashedCharacter_of_ne firstDashed]

theorem map_dashedCharacter_lt_iff {first second : List Char} (noDash : '-' ∉ first)
    (below : first < second) :
    first.map dashedCharacter < second.map dashedCharacter ↔ ¬ Crosses first second := by
  induction first generalizing second with
  | nil =>
    cases second with
    | nil => exact absurd below (List.not_lt_nil [])
    | cons head rest => exact iff_of_true (List.nil_lt_cons _ _) id
  | cons head rest ih =>
    cases second with
    | nil => exact absurd below (List.not_lt_nil _)
    | cons other more =>
      obtain ⟨notHere, notFurther⟩ := not_or.mp (mt List.mem_cons.mpr noDash)
      rw [List.map_cons, List.map_cons, List.cons_lt_cons_iff, Crosses]
      rcases List.cons_lt_cons_iff.mp below with parted | ⟨rfl, restBelow⟩
      · have headNoDash : head ≠ '-' := fun same => notHere same.symm
        rw [if_neg (Char.ne_of_lt parted)]
        rcases dashedCharacter_cases headNoDash parted with ⟨kept, straight⟩ | ⟨turned, crossed⟩
        · exact iff_of_true (.inl kept) fun crossed => straight ⟨crossed.1, crossed.2.2⟩
        · refine iff_of_false ?_ (not_not.mpr ⟨crossed.1, parted, crossed.2⟩)
          rintro (kept | ⟨same, -⟩)
          · exact Char.lt_asymm turned kept
          · exact Char.ne_of_lt turned same.symm
      · rw [if_pos rfl, ← ih notFurther restBelow]
        simp only [Char.lt_irrefl, true_and, false_or]

theorem dashed_lt_iff {first second : String} (noDash : '-' ∉ first.toList)
    (below : first < second) :
    dashed first < dashed second ↔ ¬ Crosses first.toList second.toList := by
  change (dashed first).toList < (dashed second).toList ↔ _
  rw [dashed, dashed, String.toList_ofList, String.toList_ofList]
  exact map_dashedCharacter_lt_iff noDash below

theorem dash_not_mem_keyOf (name : String) : '-' ∉ (keyOf name).toList := by
  rw [keyOf, String.toList_ofList, List.mem_map]
  rintro ⟨character, -, written⟩
  split at written
  · cases written
  · next other => exact other (beq_iff_eq.mpr written)

/-! ## Slots -/

theorem isWritten_iff {slot : String × Value} :
    IsWritten slot ↔ slot.2 ≠ .none ∧ slot.2 ≠ .bool false := by
  obtain ⟨key, value⟩ := slot
  cases value with
  | bool value => cases value <;> simp [IsWritten, slotText]
  | _ => simp [IsWritten, slotText]

namespace Document

variable {element changed : Element}

/-- No key is listed twice, and none that is set has a dash. -/
structure ElementOf.Keyed (element : Element) : Prop where
  unrepeated : Unrepeated element.slots
  noDash : ∀ slot ∈ element.slots, slot.2 ≠ .none → '-' ∉ slot.1.toList

theorem keyed_ofSchema (schema : Schema) (output : Option OutputType) :
    (ElementOf.ofSchema schema output).Keyed := by
  have unset : ∀ slot ∈ (ElementOf.ofSchema schema output).slots, slot.2 = .none :=
    List.forall_mem_map.mpr fun _ _ => rfl
  exact ⟨unrepeated_of_none unset, fun slot member set => absurd (unset slot member) set⟩

theorem ElementOf.Keyed.next (keyed : element.Keyed) (next : element.Next changed) :
    changed.Keyed := by
  cases next with
  | same => exact keyed
  | @typed name value _ set =>
    obtain ⟨-, rfl⟩ := setAttribute_eq_ok.mp set
    refine ⟨keyed.unrepeated.put _ _, Table.forall_mem_put ?_ keyed.noDash⟩
    intro _
    exact dash_not_mem_keyOf name
  | unchecked | optional => exact ⟨keyed.unrepeated, keyed.noDash⟩
  | required set =>
    obtain ⟨-, rfl⟩ := setRequired_eq_ok.mp set
    exact ⟨keyed.unrepeated, keyed.noDash⟩

/-! ## Listed attributes -/

/-- The keys of the typed attributes that are listed, in the order in which they are. -/
def ElementOf.listedKeys (element : Element) : List String :=
  (writtenSlots (slotTexts element.slots)).map Prod.fst

theorem mem_listedKeys {key : String} :
    key ∈ element.listedKeys ↔
      ∃ value, (key, value) ∈ element.slots ∧ value ≠ .none ∧ value ≠ .bool false := by
  simp only [ElementOf.listedKeys, List.mem_map, mem_writtenSlots]
  constructor
  · rintro ⟨_, ⟨⟨key, value⟩, member, written, rfl⟩, rfl⟩
    rw [slotText_fst]
    exact ⟨value, member, isWritten_iff.mp written⟩
  · rintro ⟨value, member, listed⟩
    exact ⟨_, ⟨(key, value), member, isWritten_iff.mpr listed, rfl⟩, slotText_fst _⟩

theorem map_fst_attributePairs (element : Element) :
    element.attributePairs.map Prod.fst =
      element.listedKeys.map dashed ++ element.data.map fun entry => "data-" ++ entry.1 := by
  rw [ElementOf.attributePairs, ElementOf.listedKeys, List.map_append, List.map_map, List.map_map,
    List.map_map]
  congr 1
  refine List.map_congr_left ?_
  rintro ⟨key, text⟩ -
  cases text <;> rfl

theorem map_fst_startTag (element : Element) :
    element.startTag.map Prod.fst =
      element.listedKeys.map dashed ++ (element.data.map (fun entry => "data-" ++ entry.1) ++
        element.printedHandlers.map fun entry => "on" ++ entry.1) := by
  simp only [ElementOf.startTag, ElementOf.listedKeys, List.map_append, List.map_map]
  rfl

theorem ElementOf.Keyed.ascending (keyed : element.Keyed) :
    element.listedKeys.Pairwise (· < ·) :=
  List.pairwise_map.mpr keyed.unrepeated.ascending

theorem ElementOf.Keyed.names_ascend_iff (keyed : element.Keyed) :
    (element.listedKeys.map dashed).Pairwise (· < ·) ↔
      element.listedKeys.Pairwise fun first later => ¬ Crosses first.toList later.toList := by
  have noDash : ∀ key ∈ element.listedKeys, '-' ∉ key.toList := by
    intro key listed
    obtain ⟨value, member, set, -⟩ := mem_listedKeys.mp listed
    exact keyed.noDash _ member set
  have perPair := List.Pairwise.and_mem.mp keyed.ascending
  rw [List.pairwise_map]
  constructor
  · refine fun ascend => ascend.imp₂ ?_ perPair
    rintro first later named ⟨listed, -, below⟩
    exact (dashed_lt_iff (noDash first listed) below).mp named
  · refine fun straight => straight.imp₂ ?_ perPair
    rintro first later notCrossed ⟨listed, -, below⟩
    exact (dashed_lt_iff (noDash first listed) below).mpr notCrossed

end Document

/-- Whatever is done to an element, its attributes and its start tag list the typed attributes that
are set and not false, each once and in ascending order of the keys. The names as they are written
go up exactly if no two of the keys cross. -/
theorem listed_names_ascend_unless_crossed (schema : Schema) (output : Option OutputType)
    (changes : List Document.Change) :
    let element := (Document.ElementOf.ofSchema schema output).after changes
    (∀ key, key ∈ element.listedKeys ↔
      ∃ value, (key, value) ∈ element.slots ∧ value ≠ .none ∧ value ≠ .bool false) ∧
    element.listedKeys.Pairwise (· < ·) ∧
    element.attributePairs.map Prod.fst =
      element.listedKeys.map dashed ++ element.data.map (fun entry => "data-" ++ entry.1) ∧
    element.startTag.map Prod.fst =
      element.listedKeys.map dashed ++ (element.data.map (fun entry => "data-" ++ entry.1) ++
        element.printedHandlers.map fun entry => "on" ++ entry.1) ∧
    (Document.Node.element element).render = elementMarkup element.schema
      (String.join (element.startTag.map attributeMarkup))
      (element.children.map Document.Node.render) ∧
    ((element.listedKeys.map dashed).Pairwise (· < ·) ↔
      element.listedKeys.Pairwise fun first later => ¬ Crosses first.toList later.toList) := by
  intro element
  have keyed : element.Keyed :=
    Document.after_keeps (fun _ _ => .next) changes (Document.keyed_ofSchema schema output)
  exact ⟨fun _ => Document.mem_listedKeys, keyed.ascending, Document.map_fst_attributePairs element,
    Document.map_fst_startTag element, render_eq_startTag element, keyed.names_ascend_iff⟩

/-- An element with two attributes whose keys cross. -/
def crossedElement : Element :=
  (Document.ElementOf.ofSchema
    ⟨"p", [("x1", .string "String"), ("x_y", .string "String")], [], none, []⟩ none).after
    [.setAttribute "x-y" (.text "2"), .setAttribute "x1" (.text "1")]

/-- A digit comes before an underscore, but behind a dash. -/
theorem crossedElement_names_do_not_ascend :
    crossedElement.attributePairs = [("x1", "1"), ("x-y", "2")] ∧
      crossedElement.startTag = [("x1", some "1"), ("x-y", some "2")] ∧
      ¬ ["x1", "x-y"].Pairwise (· < ·) := by
  have slots : slotTexts crossedElement.slots = [("x1", .text "1"), ("x_y", .text "2")] := rfl
  -- The slots stand in the order of the keys already, so sorting leaves them there.
  have listed : writtenSlots (slotTexts crossedElement.slots) =
      [("x1", .text "1"), ("x_y", .text "2")] := by
    rw [slots, writtenSlots, List.mergeSort_of_pairwise (List.pairwise_pair.mpr (by decide))]
    rfl
  refine ⟨?_, ?_, by decide⟩
  · rw [Document.ElementOf.attributePairs, listed]
    decide
  · rw [Document.ElementOf.startTag, listed]
    decide

end TypedMarkup
