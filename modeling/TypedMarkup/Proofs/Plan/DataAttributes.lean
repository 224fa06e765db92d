import TypedMarkup.Proofs.Plan.Growth

/-!
Contract: data attributes pass through to the document.

Owns: `PassesThrough`, which says without reading, dividing or writing anything what data an element
has by its written attributes, and the theorem that every element of a built unit has them.

Names that differ only in dashes and underscores are one name, for data attributes too: of several
attributes with one such name the last is kept, as it is spelled, at the place of the first. Where
such names are spelled alike, data attributes pass through by the names that are written.
-/

namespace TypedMarkup

open Markup

/-- Where the name of a data attribute is first written, if names of one form are the same name. -/
def firstPlace (form : String → String) (attributes : List AttributeTree) (name : String) : Nat :=
  (attributes.map fun tree => form tree.name.text).idxOf (form ("data-" ++ name))

/-- The data of an element are its written data attributes, if names of one form are the same name:
each name is there once, as it is written last and with the value that it is given last, and the
names stand in the order in which they are first written. -/
structure PassesThrough (form : String → String) (scope : Scope) (attributes : List AttributeTree)
    (element : Element) : Prop where
  listed : ∀ name text, (name, text) ∈ element.data ↔
    ∃ tree, AttributeTree.IsLast form attributes tree ∧ IsDataName tree.name.text name ∧
      tree.value.denoted.ComesTo scope text
  once : (element.data.map fun entry => form ("data-" ++ entry.1)).Nodup
  ordered : element.data.Pairwise fun earlier later =>
    firstPlace form attributes earlier.1 < firstPlace form attributes later.1

/-- Names that differ only in dashes and underscores do not differ at all. -/
def SpelledAlike (attributes : List AttributeTree) : Prop :=
  ∀ first ∈ attributes, ∀ second ∈ attributes,
    keyOf first.name.text = keyOf second.name.text → first.name.text = second.name.text

section

variable {scope : Scope} {attributes : List AttributeTree} {element : Element}

/-! ## By keys -/

/-- The data attributes of a tag stand in the order in which their keys are first written. -/
theorem dataEntries_ordered (attributes : List AttributeTree) :
    ((Direct.dataEntries (AttributeTree.denotedAll attributes)).map Prod.fst).Pairwise
      fun earlier later =>
        firstPlace keyOf attributes earlier < firstPlace keyOf attributes later := by
  have keysOrdered := Table.pairwise_distinct_filter (fun _ => true)
    (attributes.map fun tree => keyOf tree.name.text)
  rw [List.filter_true, ← AttributeTree.keys_denotedAll, List.pairwise_map] at keysOrdered
  rw [List.pairwise_map, Direct.dataEntries]
  refine keysOrdered.filterMap _ ?_
  intro first second before entry isEntry other isOther
  obtain ⟨name, isData, rfl⟩ := Option.map_eq_some_iff.mp isEntry
  obtain ⟨otherName, isOtherData, rfl⟩ := Option.map_eq_some_iff.mp isOther
  rw [(dataNameOf?_eq_some.mp isData).1, (dataNameOf?_eq_some.mp isOtherData).1] at before
  exact before

theorem BeginsAsWritten.passesThrough (begins : BeginsAsWritten scope attributes element) :
    PassesThrough keyOf scope attributes element := by
  obtain ⟨texts, matched, written⟩ := begins.data
  have ordered := dataEntries_ordered attributes
  rw [← map_fst_of_readFrom matched] at ordered
  -- The names have different places, so they are different and none is written over.
  have same : element.data = texts := by
    rw [written, Table.putAll_of_nodup, List.nil_append]
    refine ordered.imp ?_
    rintro name _ before rfl
    exact Nat.lt_irrefl _ before
  rw [List.pairwise_map] at ordered
  rw [← same] at matched ordered
  refine ⟨?_, ?_, ordered⟩
  · intro name text
    constructor
    · intro member
      obtain ⟨⟨_, found⟩, isEntry, sameName, comes⟩ := exists_left_of_mem matched member
      cases sameName
      obtain ⟨kept, isData⟩ := Direct.mem_dataEntries.mp isEntry
      obtain ⟨tree, last, rfl⟩ := AttributeTree.mem_denotedAll.mp kept
      exact ⟨tree, last, isData, comes⟩
    · rintro ⟨tree, last, isData, comes⟩
      have kept := AttributeTree.mem_denotedAll.mpr ⟨tree, last, rfl⟩
      have isEntry :
          (name, tree.denoted) ∈ Direct.dataEntries (AttributeTree.denotedAll attributes) :=
        Direct.mem_dataEntries.mpr ⟨kept, isData⟩
      obtain ⟨⟨_, other⟩, member, sameName, otherComes⟩ := exists_right_of_mem matched isEntry
      cases sameName
      cases otherComes.unique comes
      exact member
  · rw [List.nodup_iff_pairwise_ne, List.pairwise_map]
    refine ordered.imp ?_
    intro earlier later before sameKey
    rw [firstPlace, firstPlace, sameKey] at before
    exact Nat.lt_irrefl _ before

/-! ## By names -/

theorem isLast_id_iff (alike : SpelledAlike attributes) {tree : AttributeTree} :
    AttributeTree.IsLast id attributes tree ↔ AttributeTree.IsLast keyOf attributes tree := by
  unfold AttributeTree.IsLast
  refine exists_congr fun before => exists_congr fun behind => and_congr_right ?_
  rintro rfl
  have here : tree ∈ before ++ tree :: behind := List.mem_append_right before List.mem_cons_self
  refine forall₂_congr fun later member => not_congr ⟨congrArg keyOf, ?_⟩
  exact alike later (List.mem_append_right before (List.mem_cons_of_mem tree member)) tree here

/-- Where names of one form are the same, a name and its form have the same first place. -/
theorem idxOf_map_form {form : String → String} {names : List String} {name : String}
    (same : ∀ other ∈ names, form other = form name → other = name) :
    (names.map form).idxOf (form name) = names.idxOf name := by
  induction names with
  | nil => rfl
  | cons first rest ih =>
    obtain ⟨here, further⟩ := List.forall_mem_cons.mp same
    rw [List.map_cons]
    by_cases found : first = name
    · rw [List.idxOf_cons_eq _ (congrArg form found), List.idxOf_cons_eq _ found]
    · rw [List.idxOf_cons_ne _ (mt here found), List.idxOf_cons_ne _ found,
        ih further]

theorem firstPlace_id_eq (alike : SpelledAlike attributes) {tree : AttributeTree}
    (member : tree ∈ attributes) {name : String} (isData : IsDataName tree.name.text name) :
    firstPlace id attributes name = firstPlace keyOf attributes name := by
  have same : ∀ other ∈ attributes.map fun tree => tree.name.text,
      keyOf other = keyOf ("data-" ++ name) → other = "data-" ++ name := by
    rw [← isData.1]
    refine List.forall_mem_map.mpr fun other otherMember => ?_
    exact alike other otherMember tree member
  have places := idxOf_map_form same
  rw [List.map_map] at places
  exact places.symm

/-- Data attributes pass through by their written names if those are spelled alike. -/
theorem PassesThrough.asWritten (alike : SpelledAlike attributes)
    (passes : PassesThrough keyOf scope attributes element) :
    PassesThrough id scope attributes element := by
  refine ⟨?_, ?_, ?_⟩
  · intro name text
    simp only [passes.listed, isLast_id_iff alike]
  · refine List.Nodup.of_map keyOf ?_
    rw [List.map_map]
    exact passes.once
  · refine passes.ordered.imp_of_mem ?_
    intro earlier later earlierMember laterMember before
    obtain ⟨_, earlierLast, earlierData, -⟩ := (passes.listed _ _).mp earlierMember
    obtain ⟨_, laterLast, laterData, -⟩ := (passes.listed _ _).mp laterMember
    rwa [firstPlace_id_eq alike earlierLast.mem earlierData,
      firstPlace_id_eq alike laterLast.mem laterData]

end

/-- The data attributes of every element that a unit writes down are in the document that is built
from it: each name once, in the order in which the names are first written, with the value that it
is given last. Names are the same if they differ only in dashes and underscores, and the last
spelling is kept. Where no two names differ only so, every name that is written is there. -/
theorem data_attributes_pass_through {source : String} {registry : Registry}
    {requested : Option String} {plan : Plan} {scope : Scope} {node : Document.Node}
    (compiled : compile source registry requested = .ok plan)
    (built : plan.build scope = .ok node) :
    ∃ tokens tree, tokensOf source = .ok tokens ∧ UnitTree.tokens tree = tokens.toList ∧
      tree.root.Becomes (fun attributes element =>
        PassesThrough keyOf scope attributes element ∧
          (SpelledAlike attributes → PassesThrough id scope attributes element)) [node] := by
  obtain ⟨tokens, tree, tokenized, derives, becomes⟩ := exists_tree_becomes compiled built
  refine ⟨tokens, tree, tokenized, derives, becomes.imp ?_⟩
  intro attributes element begins
  exact ⟨begins.passesThrough, fun alike => begins.passesThrough.asWritten alike⟩

namespace Respelled

def declarations : String :=
  "div in [FlowContent] with FlowContent; p in [FlowContent] with FlowContent"

/-- Data attributes that are computed, written twice, spelled in two ways, and nested. -/
def nested : String :=
  "<div data-b=\x7bn\x7d data-a-x=\"1\" data-b=\"2\" data-a_x=\"3\">" ++
    "<p data-k=\x7bn\x7d>\"t\"</p></div>"

def scope : Scope := .ofTable [("n", .int 5)]

end Respelled

theorem respelledData_passes_through :
    ∃ registry plan node, Registry.ofSource Respelled.declarations = .ok registry ∧
      compile Respelled.nested registry none = .ok plan ∧
      plan.build Respelled.scope = .ok node ∧
      ∃ tokens tree, tokensOf Respelled.nested = .ok tokens ∧
        UnitTree.tokens tree = tokens.toList ∧
        tree.root.Becomes (fun attributes element =>
          PassesThrough keyOf Respelled.scope attributes element ∧
            (SpelledAlike attributes → PassesThrough id Respelled.scope attributes element))
          [node] := by
  have decided : isBuilt Respelled.declarations Respelled.nested none Respelled.scope = true := by
    decide +kernel
  obtain ⟨registry, plan, node, declared, compiled, built⟩ := exists_of_isBuilt decided
  exact ⟨registry, plan, node, declared, compiled, built,
    data_attributes_pass_through compiled built⟩

namespace Respelled

def source : String := "<div data-a-b=\"1\" data-a_b=\"2\"/>"

def span (start stop : Nat) : Span := ⟨⟨1, start + 1, start⟩, ⟨1, stop + 1, stop⟩⟩

def first : AttributeTree :=
  { name := ⟨⟨"data", span 5 9⟩,
      [⟨span 9 10, ⟨"a", span 10 11⟩⟩, ⟨span 11 12, ⟨"b", span 12 13⟩⟩],
      ⟨rfl, rfl, rfl, rfl, trivial⟩⟩
    equals := span 13 14
    value := .quoted "1" "\"1\"" (span 14 17) }

def second : AttributeTree :=
  { name := ⟨⟨"data", span 18 22⟩, [⟨span 22 23, ⟨"a_b", span 23 26⟩⟩], ⟨rfl, rfl, trivial⟩⟩
    equals := span 26 27
    value := .quoted "2" "\"2\"" (span 27 30) }

def tree : UnitTree :=
  { root := .single (span 0 1) ⟨⟨"div", span 1 4⟩, [], trivial⟩ [first, second] (span 30 31)
      (span 31 32)
    output := none
    stop := ⟨1, 33, 32⟩ }

theorem tokensOf_source : tokensOf source = .ok ⟨tree.tokens.dropLast, tree.stop⟩ := by
  with_unfolding_all rfl

/-- Both attributes are the last of their written name. -/
theorem both_listed {element : Element}
    (passes : PassesThrough id (.ofTable []) [first, second] element) :
    ("a-b", "1") ∈ element.data ∧ ("a_b", "2") ∈ element.data := by
  have apart : second.name.text ≠ first.name.text := by decide
  constructor
  · refine (passes.listed _ _).mpr ⟨first, ⟨[], [second], rfl, ?_⟩, ⟨rfl, by decide⟩, rfl⟩
    exact List.forall_mem_singleton.mpr apart
  · exact (passes.listed _ _).mpr
      ⟨second, ⟨[first], [], rfl, List.forall_mem_nil _⟩, ⟨rfl, by decide⟩, rfl⟩

end Respelled

/-- Of two data attributes whose names differ only in dashes and underscores, one is missing from
the document. -/
theorem respelled_data_is_dropped :
    ∃ registry tokens plan node, Registry.ofSource Respelled.declarations = .ok registry ∧
      tokensOf Respelled.source = .ok tokens ∧ Respelled.tree.tokens = tokens.toList ∧
      compile Respelled.source registry none = .ok plan ∧ plan.build (.ofTable []) = .ok node ∧
      ¬ Respelled.tree.root.Becomes (PassesThrough id (.ofTable [])) [node] := by
  have decided : isBuilt Respelled.declarations Respelled.source none (.ofTable []) = true := by
    decide +kernel
  obtain ⟨registry, plan, node, declared, compiled, built⟩ := exists_of_isBuilt decided
  obtain ⟨tokens, tree, tokenized, derives, becomes⟩ := exists_tree_becomes compiled built
  cases Respelled.tokensOf_source.symm.trans tokenized
  obtain rfl : tree = Respelled.tree := UnitTree.eq_of_tokens_eq derives
  refine ⟨registry, _, plan, node, declared, tokenized, derives, compiled, built, ?_⟩
  intro passes
  obtain ⟨element, sameNode, begins⟩ := becomes.exists_element rfl
  obtain ⟨_, otherNode, here⟩ := passes.exists_element rfl
  cases sameNode.symm.trans otherNode
  obtain ⟨firstListed, secondListed⟩ := Respelled.both_listed here
  have sameKey : keyOf ("data-" ++ "a-b") = keyOf ("data-" ++ "a_b") := by decide
  have sameEntry :=
    List.inj_on_of_nodup_map begins.passesThrough.once firstListed secondListed sameKey
  exact absurd (congrArg Prod.fst sameEntry) (by decide)

end TypedMarkup
