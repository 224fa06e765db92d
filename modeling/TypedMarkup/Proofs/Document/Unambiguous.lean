import Mathlib.Data.List.Basic
import TypedMarkup.Proofs.Document.Making
import TypedMarkup.Proofs.Document.Reading

/-!
Contract: written documents can be read in one way only.

Owns: that `decode` undoes `Document.Node.render`, for every document that can be made, holds no
verbatim text and has proper names. The text of the document, the values of its attributes and its
handlers may be anything.

A start tag is read through `Mode.tag?`, which does not tell apart the three places at which a tag
can go on: behind its name, behind an attribute without a value, and behind a value.
-/

namespace TypedMarkup

variable {name startTag : String} {mode : Mode} {character : Char} {pairs : List (String × String)}

def IsNameText (text : String) : Prop :=
  ∀ character ∈ text.toList, isNameCharacter character = true

theorem isNameText_of_all {text : String} (decided : text.toList.all isNameCharacter = true) :
    IsNameText text :=
  List.all_eq_true.mp decided

/-- A name that can be written: letters, digits, underscores and dashes, at least one. -/
structure IsName (name : String) : Prop where
  nonempty : name.toList ≠ []
  characters : IsNameText name

/-- A document without verbatim text, in which all names can be written. -/
inductive Document.Node.Plain : Document.Node → Prop where
  | text (value : String) : Plain (.text value)
  | element {element : Element} (name : IsName element.name)
      (attributes : ∀ slot ∈ element.slots, IsName (dashed slot.1))
      (data : ∀ entry ∈ element.data, IsNameText entry.1)
      (required : ∀ child ∈ element.required, Plain child)
      (optional : ∀ child ∈ element.optional, Plain child) : Plain (.element element)

/-! ## Going through a text -/

/-- Reading a text goes from one mode to another and completes pieces. -/
def Reads (mode : Mode) (text : List Char) (pieces : List Piece) (after : Mode) : Prop :=
  scanPieces mode text = some (pieces, after)

theorem Reads.nil (mode : Mode) : Reads mode [] [] mode := rfl

theorem Reads.cons {next after : Mode} {rest : List Char}
    {piece : Option Piece} {pieces : List Piece}
    (stepped : step mode character = some (piece, next))
    (further : Reads next rest pieces after) :
    Reads mode (character :: rest) (piece.toList ++ pieces) after := by
  unfold Reads at further ⊢
  rw [scanPieces, stepped]
  simp only [Option.bind_eq_bind, Option.bind_some, further, Option.pure_def]

theorem Reads.append {between after : Mode} {first second : List Char}
    {pieces more : List Piece} (readFirst : Reads mode first pieces between)
    (readSecond : Reads between second more after) :
    Reads mode (first ++ second) (pieces ++ more) after := by
  induction first generalizing mode pieces with
  | nil =>
    cases readFirst
    exact readSecond
  | cons character rest ih =>
    unfold Reads at readFirst
    rw [scanPieces, Option.bind_eq_bind, Option.bind_eq_some_iff] at readFirst
    obtain ⟨⟨piece, next⟩, stepped, behindStep⟩ := readFirst
    rw [Option.bind_eq_bind, Option.bind_eq_some_iff] at behindStep
    obtain ⟨⟨found, last⟩, scanned, same⟩ := behindStep
    cases same
    rw [List.cons_append, List.append_assoc]
    exact .cons stepped (ih scanned)

theorem step_of_tag? {tag : OpenTag} {found : Option Piece × Mode} (tagFound : mode.tag? = some tag)
    (stepped : tagStep tag character = some found) : step mode character = some found := by
  rw [step, tagFound, Option.bind_some, stepped]

theorem step_of_plainStep (noTag : mode.tag? = none ∨ ∀ tag, tagStep tag character = none) :
    step mode character = plainStep mode character := by
  rw [step]
  rcases noTag with noTag | noStep
  · rw [noTag]
    rfl
  · cases mode.tag? with
    | none => rfl
    | some tag =>
      rw [Option.bind_some, noStep tag]

/-! ## Text -/

theorem reads_contentCharacter (character : Char) :
    Reads .content (Text.contentCharacter character) [.character character] .content := by
  unfold Text.contentCharacter
  split
  · rfl
  · rfl
  · rfl
  · next notAmpersand notLess notGreater =>
    have stepped : step .content character = some (some (.character character), .content) := by
      rw [step_of_plainStep (.inl rfl), plainStep]
      · exact notLess
      · exact notAmpersand
      · exact notGreater
    exact .cons stepped (.nil _)

theorem reads_content (text : List Char) :
    Reads .content (text.flatMap Text.contentCharacter) (text.map .character) .content := by
  induction text with
  | nil => exact .nil _
  | cons character rest ih =>
    exact (reads_contentCharacter character).append ih

theorem reads_attributeCharacter (tag : OpenTag) (name : String) (read : List Char)
    (character : Char) :
    Reads (.value tag name read) (Text.attributeCharacter character) []
      (.value tag name (read ++ [character])) := by
  unfold Text.attributeCharacter
  split
  · rfl
  · rfl
  · next notQuote _ =>
    unfold Text.contentCharacter
    split
    · rfl
    · rfl
    · rfl
    · next notAmpersand _ _ =>
      have stepped : step (.value tag name read) character =
          some (none, .value tag name (read ++ [character])) := by
        rw [step_of_plainStep (.inl rfl), plainStep]
        · exact notQuote
        · exact notAmpersand
      exact .cons stepped (.nil _)

theorem reads_value (tag : OpenTag) (name : String) (read text : List Char) :
    Reads (.value tag name read) (text.flatMap Text.attributeCharacter) []
      (.value tag name (read ++ text)) := by
  induction text generalizing read with
  | nil =>
    rw [List.append_nil]
    exact .nil _
  | cons character rest ih =>
    have further := ih (read ++ [character])
    rw [List.append_assoc] at further
    exact (reads_attributeCharacter tag name read character).append further

/-! ## Names -/

theorem ne_of_isNameCharacter {other : Char} (isName : isNameCharacter character = true)
    (notName : isNameCharacter other = false) : character ≠ other := by
  rintro rfl
  rw [notName] at isName
  cases isName

theorem tagStep_name (isName : isNameCharacter character = true)
    (tag : OpenTag) : tagStep tag character = none := by
  unfold tagStep
  split
  · exact absurd rfl (ne_of_isNameCharacter isName (by decide))
  · exact absurd rfl (ne_of_isNameCharacter isName (by decide))
  · exact absurd rfl (ne_of_isNameCharacter isName (by decide))
  · rfl

theorem reads_name {collecting : List Char → Mode} {text : List Char} (read : List Char)
    (steps : ∀ read character, isNameCharacter character = true →
      plainStep (collecting read) character = some (none, collecting (read ++ [character])))
    (isName : ∀ character ∈ text, isNameCharacter character = true) :
    Reads (collecting read) text [] (collecting (read ++ text)) := by
  induction text generalizing read with
  | nil =>
    rw [List.append_nil]
    exact .nil _
  | cons character rest ih =>
    obtain ⟨firstIsName, restIsName⟩ := List.forall_mem_cons.mp isName
    have stepped : step (collecting read) character =
        some (none, collecting (read ++ [character])) := by
      rw [step_of_plainStep (.inr (tagStep_name firstIsName)), steps read character firstIsName]
    have further := ih (read ++ [character]) restIsName
    rw [List.append_assoc] at further
    exact .cons stepped further

theorem reads_startName (isName : IsName name) :
    Reads .content ('<' :: name.toList) [] (.startName name.toList) := by
  obtain ⟨first, rest, spelled⟩ := List.exists_cons_of_ne_nil isName.nonempty
  have characters := isName.characters
  unfold IsNameText at characters
  rw [spelled] at characters ⊢
  obtain ⟨firstIsName, restIsName⟩ := List.forall_mem_cons.mp characters
  have opened : step .content '<' = some (none, .opened) := rfl
  have begun : step .opened first = some (none, .startName [first]) := by
    rw [step_of_plainStep (.inl rfl), plainStep,
      if_neg (ne_of_isNameCharacter firstIsName (by decide)), if_pos firstIsName]
  have further : Reads (.startName [first]) rest [] (.startName ([first] ++ rest)) := by
    apply reads_name [first] _ restIsName
    intro read character characterIsName
    rw [plainStep, if_pos characterIsName]
  exact .cons opened (.cons begun further)

theorem reads_endTag (isName : IsName name) :
    Reads .content ('<' :: '/' :: (name.toList ++ ['>'])) [.finish name] .content := by
  have opened : step .content '<' = some (none, .opened) := rfl
  have slashed : step .opened '/' = some (none, .endName []) := rfl
  have named : Reads (.endName []) name.toList [] (.endName name.toList) := by
    apply reads_name [] _ isName.characters
    intro read character characterIsName
    rw [plainStep, if_neg (ne_of_isNameCharacter characterIsName (by decide)),
      if_pos characterIsName]
  have finished : Reads (.endName name.toList) ['>'] [.finish name] .content := by
    have stepped : step (.endName name.toList) '>' = some (some (.finish name), .content) := by
      rw [step_of_plainStep (.inl rfl), plainStep, if_pos rfl, String.ofList_toList]
    exact .cons stepped (.nil _)
  exact .cons opened (.cons slashed (named.append finished))

/-! ## Start tags -/

/-- Wherever a start tag can go on, a text adds attributes to it, and the tag can go on again. -/
def AddsAttributes (text : String) (pairs : List (String × String)) : Prop :=
  ∀ mode tag, Mode.tag? mode = some tag → ∃ after, Reads mode text.toList [] after ∧
    after.tag? = some ⟨tag.name, tag.attributes ++ pairs⟩

theorem AddsAttributes.empty : AddsAttributes "" [] := by
  intro mode tag tagFound
  refine ⟨mode, .nil mode, ?_⟩
  rw [List.append_nil]
  exact tagFound

theorem AddsAttributes.append {first second : String} {more : List (String × String)}
    (addsFirst : AddsAttributes first pairs) (addsSecond : AddsAttributes second more) :
    AddsAttributes (first ++ second) (pairs ++ more) := by
  intro mode tag tagFound
  obtain ⟨between, readFirst, betweenTag⟩ := addsFirst mode tag tagFound
  obtain ⟨after, readSecond, afterTag⟩ := addsSecond between _ betweenTag
  refine ⟨after, ?_, ?_⟩
  · rw [String.toList_append]
    exact readFirst.append readSecond
  · rw [afterTag, List.append_assoc]

theorem AddsAttributes.join {α : Type} {items : List α} {written : α → String}
    {pairs : α → List (String × String)}
    (each : ∀ item ∈ items, AddsAttributes (written item) (pairs item)) :
    AddsAttributes (String.join (items.map written)) (items.flatMap pairs) := by
  induction items with
  | nil => exact .empty
  | cons item rest ih =>
    obtain ⟨here, further⟩ := List.forall_mem_cons.mp each
    rw [List.map_cons, String.join_cons, List.flatMap_cons]
    exact here.append (ih further)

theorem reads_attributeName {tag : OpenTag}
    (characters : IsNameText name) (tagFound : mode.tag? = some tag) :
    Reads mode (" " ++ name).toList [] (.attributeName tag name.toList) := by
  have spaced : step mode ' ' = some (none, .attributeName tag []) := step_of_tag? tagFound rfl
  rw [String.toList_append]
  apply Reads.cons spaced
  apply reads_name [] _ characters
  intro read character characterIsName
  rw [plainStep, if_neg (ne_of_isNameCharacter characterIsName (by decide)), if_pos characterIsName]

theorem addsAttributes_bare (isName : IsName name) :
    AddsAttributes (" " ++ name) [(name, "")] := by
  intro mode tag tagFound
  refine ⟨_, reads_attributeName isName.characters tagFound, ?_⟩
  obtain ⟨first, rest, spelled⟩ := List.exists_cons_of_ne_nil isName.nonempty
  rw [spelled, Mode.tag?, ← spelled, String.ofList_toList]
  rfl

theorem addsAttributes_valued (characters : IsNameText name) (value : String) :
    AddsAttributes (" " ++ name ++ "=\"" ++ Text.escapeAttribute value ++ "\"")
      [(name, value)] := by
  intro mode tag tagFound
  refine ⟨.behindValue (tag.withAttribute name value), ?_, rfl⟩
  have assigned : step (.attributeName tag name.toList) '=' = some (none, .assigned tag name) := by
    rw [step_of_plainStep (.inr fun _ => rfl), plainStep, if_pos rfl, String.ofList_toList]
  have opened : step (.assigned tag name) '"' = some (none, .value tag name []) := rfl
  have quoted : Reads (.attributeName tag name.toList) "=\"".toList [] (.value tag name []) := by
    have spelled : "=\"".toList = ['=', '"'] := rfl
    rw [spelled]
    exact .cons assigned (.cons opened (.nil _))
  have escaped : Reads (.value tag name []) (Text.escapeAttribute value).toList []
      (.value tag name value.toList) := by
    rw [Text.escapeAttribute, String.toList_ofList]
    exact reads_value tag name [] value.toList
  have closed : Reads (.value tag name value.toList) "\"".toList []
      (.behindValue (tag.withAttribute name value)) := by
    have stepped : step (.value tag name value.toList) '"' =
        some (none, .behindValue (tag.withAttribute name value)) := by
      rw [step_of_plainStep (.inl rfl), plainStep, String.ofList_toList]
    exact .cons stepped (.nil _)
  simp only [String.toList_append]
  rw [← String.toList_append]
  exact (((reads_attributeName characters tagFound).append quoted).append escaped).append closed

theorem reads_startTag (isName : IsName name) (adds : AddsAttributes startTag pairs) :
    ∃ after, Reads .content ("<" ++ name ++ startTag).toList [] after ∧
      after.tag? = some ⟨name, pairs⟩ := by
  have named : (Mode.startName name.toList).tag? = some ⟨name, []⟩ := by
    obtain ⟨first, rest, spelled⟩ := List.exists_cons_of_ne_nil isName.nonempty
    rw [spelled, Mode.tag?, ← spelled, String.ofList_toList]
  obtain ⟨after, readAttributes, afterTag⟩ := adds _ _ named
  refine ⟨after, ?_, afterTag⟩
  rw [String.toList_append, String.toList_append]
  exact (reads_startName isName).append readAttributes

/-! ## The attributes of an element -/

theorem addsAttributes_slots {slots : List (String × SlotText)}
    (names : ∀ slot ∈ slots, IsName (dashed slot.1)) :
    AddsAttributes (slotsMarkup slots) ((writtenSlots slots).map fun slot =>
      match slot.2 with
      | .text value => (dashed slot.1, value)
      | _ => (dashed slot.1, "")) := by
  rw [List.map_eq_flatMap]
  apply AddsAttributes.join
  intro slot member
  obtain ⟨sorted, present⟩ := List.mem_filter.mp member
  have isName := names slot (List.mem_mergeSort.mp sorted)
  obtain ⟨key, form⟩ := slot
  cases form with
  | absent => cases present
  | bare => exact addsAttributes_bare isName
  | text value => exact addsAttributes_valued isName.characters value

theorem addsAttributes_data {data : List (String × String)}
    (names : ∀ entry ∈ data, IsNameText entry.1) :
    AddsAttributes (dataMarkup data) (data.map fun entry => ("data-" ++ entry.1, entry.2)) := by
  rw [List.map_eq_flatMap]
  apply AddsAttributes.join
  intro entry member
  have mark : IsNameText "data-" := isNameText_of_all rfl
  have characters : IsNameText ("data-" ++ entry.1) := by
    intro character among
    rw [String.toList_append] at among
    rcases List.mem_append.mp among with inMark | inName
    · exact mark character inMark
    · exact names entry member character inName
  have spelled : " data-" ++ entry.1 = " " ++ ("data-" ++ entry.1) := by
    rw [← String.append_assoc]
    rfl
  rw [spelled]
  exact addsAttributes_valued characters entry.2

theorem isNameText_event : ∀ event ∈ events, IsNameText ("on" ++ event) := by
  have decided : (events.all fun event => ("on" ++ event).toList.all isNameCharacter) = true := by
    decide +kernel
  intro event member
  exact isNameText_of_all (List.all_eq_true.mp decided event member)

theorem addsAttributes_handlers {handlers : List (String × Document.Handler Value)}
    (ownEvents : ∀ entry ∈ handlers, entry.2.event = entry.1) :
    AddsAttributes (handlersMarkup handlers)
      (printedHandlers (events.filterMap fun event => handlers.lookup event)) := by
  rw [printedHandlers, List.filterMap_filterMap, List.filterMap_eq_flatMap_toList]
  apply AddsAttributes.join
  intro event member
  cases found : handlers.lookup event with
  | none => exact .empty
  | some handler =>
    have sameEvent : handler.event = event := ownEvents _ (Table.mem_of_get? found)
    simp only [Option.bind_some]
    cases handler.text? with
    | none => exact .empty
    | some text =>
      have spelled : " on" ++ event = " " ++ ("on" ++ event) := by
        rw [← String.append_assoc]
        rfl
      simp only [Option.map_some, Option.toList_some, sameEvent, spelled]
      exact addsAttributes_valued (isNameText_event event member) text

theorem exists_slot_of_mem_slotTexts {slots : List (String × Value)} {written : String × SlotText}
    (member : written ∈ slotTexts slots) : ∃ slot ∈ slots, slot.1 = written.1 := by
  have sameKey : ∀ slot : String × Value, (slotText slot).1 = slot.1 := by
    rintro ⟨key, value⟩
    unfold slotText
    split
    all_goals first | rfl | simp_all
  induction slots with
  | nil => cases member
  | cons slot rest ih =>
    rw [slotTexts] at member
    rcases List.mem_cons.mp member with rfl | further
    · exact ⟨slot, List.mem_cons_self, (sameKey slot).symm⟩
    · obtain ⟨found, among, same⟩ := ih further
      exact ⟨found, List.mem_cons_of_mem slot among, same⟩

/-- The start tag of an element is read with the attributes of its view and its printed handlers. -/
theorem addsAttributes_element {element : Element} (own : element.Regular)
    (attributes : ∀ slot ∈ element.slots, IsName (dashed slot.1))
    (data : ∀ entry ∈ element.data, IsNameText entry.1) :
    AddsAttributes (slotsMarkup (slotTexts element.slots) ++ dataMarkup element.data ++
      handlersMarkup element.handlers)
      (element.attributePairs ++ printedHandlers element.orderedHandlers) := by
  have slotNames : ∀ written ∈ slotTexts element.slots, IsName (dashed written.1) := by
    intro written member
    obtain ⟨slot, among, same⟩ := exists_slot_of_mem_slotTexts member
    exact same ▸ attributes slot among
  exact ((addsAttributes_slots slotNames).append (addsAttributes_data data)).append
    (addsAttributes_handlers own.handlers)

/-! ## Documents -/

theorem assemble_append (behind : Behind) (first second : List Piece) :
    assemble behind (first ++ second) =
      (assemble behind second).bind fun between => assemble between first := by
  induction first with
  | nil => simp [assemble]
  | cons piece rest ih =>
    rw [List.cons_append, assemble, ih, Option.bind_assoc]
    rfl

/-- Wherever text can stand, a text is read as a document in front of what is read behind it. -/
def Shows (text : String) (reading : List Reading → List Reading) : Prop :=
  ∃ pieces, Reads .content text.toList pieces .content ∧
    ∀ beside unfinished, assemble ⟨beside, unfinished⟩ pieces = some ⟨reading beside, unfinished⟩

theorem Shows.empty : Shows "" id :=
  ⟨[], .nil _, fun _ _ => rfl⟩

theorem Shows.append {first second : String} {reading further : List Reading → List Reading}
    (showsFirst : Shows first reading) (showsSecond : Shows second further) :
    Shows (first ++ second) (reading ∘ further) := by
  obtain ⟨pieces, readFirst, assembleFirst⟩ := showsFirst
  obtain ⟨more, readSecond, assembleSecond⟩ := showsSecond
  refine ⟨pieces ++ more, ?_, ?_⟩
  · rw [String.toList_append]
    exact readFirst.append readSecond
  · intro beside unfinished
    rw [assemble_append, assembleSecond, Option.bind_some, assembleFirst]
    rfl

theorem prependText_append (first second : String) (behind : List Reading) :
    Reading.prependText (first ++ second) behind =
      Reading.prependText first (Reading.prependText second behind) := by
  unfold Reading.prependText
  by_cases noFirst : first = ""
  · rw [noFirst, String.empty_append, if_pos rfl]
  · by_cases noSecond : second = ""
    · rw [noSecond, String.append_empty, if_pos rfl]
    · have notBoth : first ++ second ≠ "" := by
        intro both
        apply noFirst
        rw [← String.toList_eq_nil_iff] at both ⊢
        rw [String.toList_append] at both
        exact (List.append_eq_nil_iff.mp both).1
      rw [if_neg notBoth, if_neg noFirst, if_neg noSecond]
      split
      · rw [String.append_assoc]
      · rfl

theorem assemble_characters (text : List Char) (beside : List Reading)
    (unfinished : List (String × List Reading)) :
    assemble ⟨beside, unfinished⟩ (text.map .character) =
      some ⟨Reading.prependText (String.ofList text) beside, unfinished⟩ := by
  induction text with
  | nil => rfl
  | cons character rest ih =>
    have spelled : String.ofList (character :: rest) =
        String.singleton character ++ String.ofList rest := by
      rw [← String.toList_inj]
      simp
    rw [List.map_cons, assemble, ih, Option.bind_some, Piece.putBefore, spelled,
      prependText_append]

theorem shows_text (value : String) :
    Shows (Text.escapeContent value) (Reading.prependText value) := by
  refine ⟨value.toList.map .character, ?_, ?_⟩
  · rw [Text.escapeContent, String.toList_ofList]
    exact reads_content value.toList
  · intro beside unfinished
    rw [assemble_characters, String.ofList_toList]

theorem shows_single (isName : IsName name) (adds : AddsAttributes startTag pairs) :
    Shows ("<" ++ name ++ startTag ++ "/>") (.element name pairs [] :: ·) := by
  obtain ⟨inTag, readStart, tagFound⟩ := reads_startTag isName adds
  have slashed : step inTag '/' = some (none, .slash ⟨name, pairs⟩) := step_of_tag? tagFound rfl
  have finished : step (.slash ⟨name, pairs⟩) '>' = some (some (.single ⟨name, pairs⟩), .content) :=
    rfl
  refine ⟨[.single ⟨name, pairs⟩], ?_, fun _ _ => rfl⟩
  rw [String.toList_append]
  exact readStart.append (.cons slashed (.cons finished (.nil _)))

/-- An element with a start tag and an end tag. -/
theorem shows_nested {inside : String}
    {reading : List Reading → List Reading} (isName : IsName name)
    (adds : AddsAttributes startTag pairs) (shows : Shows inside reading) :
    Shows ("<" ++ name ++ startTag ++ ">" ++ inside ++ "</" ++ name ++ ">")
      (.element name pairs (reading []) :: ·) := by
  obtain ⟨inTag, readStart, tagFound⟩ := reads_startTag isName adds
  obtain ⟨pieces, readInside, assembleInside⟩ := shows
  have stepped : step inTag '>' = some (some (.start ⟨name, pairs⟩), .content) :=
    step_of_tag? tagFound rfl
  have opened : Reads inTag ['>'] [.start ⟨name, pairs⟩] .content := .cons stepped (.nil _)
  refine ⟨[.start ⟨name, pairs⟩] ++ pieces ++ [.finish name], ?_, ?_⟩
  · have whole := ((readStart.append opened).append readInside).append (reads_endTag isName)
    simpa [String.toList_append] using whole
  · intro beside unfinished
    rw [List.append_assoc, assemble_append, assemble_append]
    simp only [assemble, Piece.putBefore, Option.bind_some, assembleInside, if_true]

theorem renderAll_eq_map (nodes : List Document.Node) :
    renderAll nodes = nodes.map Document.Node.render := by
  induction nodes with
  | nil => rfl
  | cons node rest ih => rw [renderAll, ih, List.map_cons]

theorem viewAll_eq_map (nodes : List Document.Node) :
    viewAll nodes = nodes.map Document.Node.view := by
  induction nodes with
  | nil => rfl
  | cons node rest ih => rw [viewAll, ih, List.map_cons]

theorem readAll_eq_foldr (views : List View) :
    readAll views = views.foldr (fun view behind => view.readBefore behind) [] := by
  induction views with
  | nil => rfl
  | cons view rest ih => rw [readAll, ih, List.foldr_cons]

theorem shows_all {nodes : List Document.Node}
    (each : ∀ node ∈ nodes, Shows node.render fun behind => node.view.readBefore behind) :
    Shows (String.join (nodes.map Document.Node.render)) fun behind =>
      (nodes.map Document.Node.view).foldr (fun view rest => view.readBefore rest) behind := by
  induction nodes with
  | nil => exact .empty
  | cons node rest ih =>
    obtain ⟨here, further⟩ := List.forall_mem_cons.mp each
    rw [List.map_cons, String.join_cons]
    exact here.append (ih further)

theorem shows_element {element : Element} (own : element.Regular) (name : IsName element.name)
    (attributes : ∀ slot ∈ element.slots, IsName (dashed slot.1))
    (data : ∀ entry ∈ element.data, IsNameText entry.1)
    (children : ∀ child ∈ element.required ++ element.optional,
      Shows child.render fun behind => child.view.readBefore behind) :
    Shows (Document.Node.element element).render fun behind =>
      (Document.Node.element element).view.readBefore behind := by
  have adds := addsAttributes_element own attributes data
  have shows := shows_all children
  obtain ⟨schema, output, slots, entries, handlers, required, optional, identity⟩ := element
  rw [Document.Node.render, renderElement, Document.Node.view, viewElement, elementMarkup,
    renderAll_eq_map, renderAll_eq_map, ← List.map_append]
  simp only [View.readBefore, readAll_eq_foldr, viewAll_eq_map, ← List.map_append]
  split
  · next asOneTag =>
    have childless : required ++ optional = [] := by
      rw [Bool.or_eq_true, Bool.and_eq_true, Bool.and_eq_true, List.isEmpty_iff,
        Option.isNone_iff_eq_none, List.isEmpty_iff, List.map_eq_nil_iff] at asOneTag
      rcases asOneTag with ⟨noneRequired, noConstraint⟩ | ⟨noChildren, -⟩
      · exact List.append_eq_nil_iff.mpr ⟨own.required noneRequired, own.optional noConstraint⟩
      · exact noChildren
    rw [childless]
    exact shows_single name adds
  · exact shows_nested name adds shows

/-- A document that can be made, holds no verbatim text and has proper names is read as its view. -/
theorem Document.Node.Plain.shows {node : Document.Node} (plain : node.Plain)
    (regular : node.Regular) : Shows node.render fun behind => node.view.readBefore behind := by
  induction plain with
  | text value =>
    rw [Document.Node.render, Document.Node.view]
    simp only [View.readBefore]
    exact shows_text value
  | element name attributes data _ _ requiredHypothesis optionalHypothesis =>
    cases regular with
    | element own required optional =>
      apply shows_element own name attributes data
      intro child member
      rcases List.mem_append.mp member with inRequired | inOptional
      · exact requiredHypothesis child inRequired (required child inRequired)
      · exact optionalHypothesis child inOptional (optional child inOptional)

/-- What is written can be read in one way only: reading gives back the view of the document. No
text, attribute value or handler can be taken for a tag or an attribute. -/
theorem decode_render {node : Document.Node} (made : node.Made) (plain : node.Plain) :
    decode node.render = some (readAll [node.view]) := by
  obtain ⟨pieces, read, assembled⟩ := plain.shows made.regular
  unfold Reads at read
  rw [decode, read]
  simp only [assembled, readAll]

/-- An element whose texts, values and handlers are all written like tags and attributes. -/
def hostileElement : Element :=
  { schema := ⟨"p_x", [("title", .string "String"), ("hidden", .bool)], [], some "FlowContent", []⟩
    output := some .string
    slots := [("title", .text "\"></p-x><b id='1'>&amp;"), ("hidden", .bool true)]
    data := [("k", "\" onclick=\"steal()")]
    handlers := [("click", ⟨"click", .text "go(\"</p-x>\")", .string⟩)]
    required := []
    optional := [.text "</p-x>", .text "", .text "<!-- &lt;"]
    identity := none }

theorem hostileElement_is_read_back :
    Document.Node.Made (.element hostileElement) ∧ Document.Node.Plain (.element hostileElement) ∧
      decode (Document.Node.element hostileElement).render =
        some (readAll [(Document.Node.element hostileElement).view]) := by
  have made : Document.Node.Made (.element hostileElement) := by
    have started : Document.Node.Made
        (.element (.ofSchema hostileElement.schema hostileElement.output)) := .ofSchema _ _
    have titled := started.setAttribute
      (rfl : Document.ElementOf.setAttribute _ "title" (.text "\"></p-x><b id='1'>&amp;") = .ok _)
    have hidden := titled.setAttribute
      (rfl : Document.ElementOf.setAttribute _ "hidden" (.bool true) = .ok _)
    have handled := (hidden.setData "k" "\" onclick=\"steal()").setHandler
      ⟨"click", .text "go(\"</p-x>\")", .string⟩
    have closed := handled.append (.text "</p-x>") rfl
    have emptied := closed.append (.text "") rfl
    exact emptied.append (.text "<!-- &lt;") rfl
  have plain : Document.Node.Plain (.element hostileElement) := by
    refine .element ⟨by decide, isNameText_of_all rfl⟩ ?_ ?_ ?_ ?_
    · intro slot member
      simp only [hostileElement, List.mem_cons, List.not_mem_nil, or_false] at member
      rcases member with rfl | rfl
      all_goals exact ⟨by decide, isNameText_of_all rfl⟩
    · exact List.forall_mem_singleton.mpr (isNameText_of_all rfl)
    · exact List.forall_mem_nil _
    · intro child member
      simp only [hostileElement, List.mem_cons, List.not_mem_nil, or_false] at member
      rcases member with rfl | rfl | rfl
      all_goals exact .text _
  exact ⟨made, plain, decode_render made plain⟩

end TypedMarkup
