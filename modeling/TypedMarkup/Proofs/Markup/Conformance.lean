import TypedMarkup.Markup.Grammar
import TypedMarkup.Proofs.Markup.Buckets
import TypedMarkup.Schema.Html

/-!
Contract: which markup trees satisfy a registry, and what checking makes of them.

Owns: `Markup.Node.Conforms`, the rules of the schemas said for every element of a tree at once,
`Checked.Fits`, the same rules for a checked tree, and the theorem that checking succeeds on exactly
the conforming trees and then only sorts what is there.

Does not own: the values of attributes, which are read when a tree is planned.
-/

namespace TypedMarkup

open Markup

variable {checked : Checked} {span : Span} {child : Node}

/-! ## The rules -/

/-- One node stands in another, at any depth. -/
inductive Markup.Node.Within : Node → Node → Prop where
  | self (node : Node) : Within node node
  | deeper {part child : Node} {tag : Tag} {children : List Node} {span : Span}
      (member : child ∈ children) (inside : Within part child) :
      Within part (.element tag children span)

/-- A constraint accepts a child: it names a category of it or, for an element, the element. What a
block will produce is not known yet. -/
def Markup.Node.AcceptedBy (registry : Registry) (constraint : String) : Node → Prop
  | .element tag _ _ =>
    ∃ schema, registry.schema? (keyOf tag.name) = some schema ∧
      (constraint ∈ schema.categories ∨ constraint = schema.name)
  | .text _ _ => constraint ∈ textTags
  | .block _ => True

/-- A child is an element by a name. -/
def Markup.Node.HasKey (name : String) (child : Node) : Prop :=
  ∃ childTag below span, child = .element childTag below span ∧ keyOf childTag.name = name

structure ElementConforms (registry : Registry) (tag : Tag) (children : List Node)
    (schema : Schema) : Prop where
  resolved : registry.schema? (keyOf tag.name) = some schema
  enough : schema.required.length ≤ children.length
  required : ∀ (index : Nat) (name : String), schema.required[index]? = some name →
    ∃ childTag below span, children[index]? = some (.element childTag below span) ∧
      keyOf childTag.name = name
  further : ∀ child ∈ children.drop schema.required.length,
    ∃ constraint, schema.constraint = some constraint ∧ child.AcceptedBy registry constraint
  attributes : ∀ found ∈ tag.attributes, IsLegalName schema found.name

/-- Every element of a tree keeps to the rules. -/
def Markup.Node.Conforms (registry : Registry) (node : Node) : Prop :=
  ∀ tag children span, Node.Within (.element tag children span) node →
    ∃ schema, ElementConforms registry tag children schema

namespace Checked

def schemaName? : Checked → Option String
  | element head _ _ => some head.schema.name
  | _ => none

def AcceptedBy (constraint : String) : Checked → Prop
  | element head _ _ => constraint ∈ head.schema.tags
  | text _ _ => constraint ∈ textTags
  | block _ => True

mutual

/-- The tree that a checked tree was made from. -/
def erase : Checked → Node
  | element head required optional =>
    .element head.tag (eraseAll required ++ eraseAll optional) head.span
  | text value span => .text value span
  | block expression => .block expression

/-- The trees that checked trees were made from. -/
def eraseAll : List Checked → List Node
  | [] => []
  | child :: rest => child.erase :: eraseAll rest

end

/-- Every element of a checked tree has its schema, its required children by their names, further
children that its constraint accepts, and its attributes divided. -/
inductive Fits (registry : Registry) : Checked → Prop where
  | text (value : String) (span : Span) : Fits registry (.text value span)
  | block (expression : Expression) : Fits registry (.block expression)
  | element {head : CheckedTag} {required optional : List Checked}
      (resolved : registry.schema? (keyOf head.tag.name) = some head.schema)
      (names : required.map schemaName? = head.schema.required.map some)
      (accepted : ∀ child ∈ optional, ∃ constraint, head.schema.constraint = some constraint ∧
        child.AcceptedBy constraint)
      (divided : head.buckets.Divides head.schema head.tag.attributes)
      (requiredFit : ∀ child ∈ required, Fits registry child)
      (optionalFit : ∀ child ∈ optional, Fits registry child) :
      Fits registry (.element head required optional)

theorem eraseAll_eq_map (children : List Checked) : eraseAll children = children.map erase := by
  induction children with
  | nil => rfl
  | cons child rest ih => rw [eraseAll, ih, List.map_cons]

end Checked

theorem Registry.name_of_schema? {registry : Registry} {name : String} {schema : Schema}
    (found : registry.schema? name = some schema) : schema.name = name := by
  simpa using List.find?_some found

theorem Markup.Node.conforms_element {registry : Registry} {tag : Tag} {children : List Node} :
    Node.Conforms registry (.element tag children span) ↔
      (∃ schema, ElementConforms registry tag children schema) ∧
        ∀ child ∈ children, child.Conforms registry := by
  constructor
  · intro conforms
    refine ⟨conforms tag children span (.self _), ?_⟩
    intro child member otherTag below otherSpan inside
    exact conforms otherTag below otherSpan (.deeper member inside)
  · rintro ⟨own, childrenConform⟩ otherTag below otherSpan inside
    cases inside with
    | self => exact own
    | deeper member inside => exact childrenConform _ member otherTag below otherSpan inside

/-! ## What each check decides -/

section

variable {registry : Registry} {source : String} {tag : Tag} {schema : Schema}

theorem schemaOf_eq_ok :
    schemaOf registry source tag = .ok schema ↔
      registry.schema? (keyOf tag.name) = some schema := by
  unfold schemaOf
  split
  · next found => simp [found]
  · next absent => simp [absent]

theorem checkRequiredName_eq_ok {expected : String} {index : Nat} {done : Unit} :
    checkRequiredName source tag expected index child = .ok done ↔ child.HasKey expected := by
  cases child <;> simp [checkRequiredName, Node.HasKey]

theorem checkAccepted_eq_ok :
    checkAccepted registry source tag schema child = .ok () ↔
      ∃ constraint, schema.constraint = some constraint ∧
        child.AcceptedBy registry constraint := by
  unfold checkAccepted
  split
  · next absent => simp [absent]
  · next constraint present =>
    -- The constraint is the only one there can be, so both sides speak about it.
    have onlyOne : (∃ other, schema.constraint = some other ∧ child.AcceptedBy registry other) ↔
        child.AcceptedBy registry constraint := by
      simp [present]
    rw [onlyOne]
    cases child with
    | element childTag below span =>
      simp only [bind_eq_ok, map_eq_ok, schemaOf_eq_ok, Node.AcceptedBy]
      constructor
      · rintro ⟨tags, ⟨found, resolved, rfl⟩, decided⟩
        refine ⟨found, resolved, ?_⟩
        split at decided
        · next accepted => simpa [Schema.tags] using accepted
        · exact absurd decided throw_ne_ok
      · rintro ⟨found, resolved, accepted⟩
        refine ⟨found.tags, ⟨found, resolved, rfl⟩, ?_⟩
        rw [if_pos (by simpa [Schema.tags] using accepted)]
        rfl
    | text value span =>
      simp only [pure_bind, Node.AcceptedBy]
      split
      · next accepted => simpa [pure_eq_ok] using accepted
      · next rejected =>
        refine ⟨fun decided => absurd decided throw_ne_ok, fun accepted => ?_⟩
        exact absurd (by simpa using accepted) rejected
    | block expression =>
      simp [Node.AcceptedBy, pure_eq_ok]

abbrev Checks (registry : Registry) (source : String) (child : Node) (checked : Checked) : Prop :=
  checkNode registry source child = .ok checked

/-- The first children have the required names, and the constraint accepts the others. -/
theorem checkChildren_eq_ok {expected : List String} {index : Nat} {children : List Node}
    {required optional : List Checked} (enough : expected.length ≤ children.length) :
    checkChildren registry source tag schema expected index children = .ok (required, optional) ↔
      List.Forall₂ Node.HasKey expected (children.take expected.length) ∧
        (∀ child ∈ children.drop expected.length,
          checkAccepted registry source tag schema child = .ok ()) ∧
        List.Forall₂ (Checks registry source) (children.take expected.length) required ∧
        List.Forall₂ (Checks registry source) (children.drop expected.length) optional := by
  induction children generalizing expected index required optional with
  | nil =>
    cases List.eq_nil_of_length_eq_zero (Nat.le_zero.mp enough)
    simp [checkChildren, eq_comm]
  | cons child rest ih =>
    cases expected with
    | cons name names =>
      simp only [checkChildren, bind_eq_ok, pure_eq_ok, checkRequiredName_eq_ok, Prod.exists,
        ih (Nat.le_of_succ_le_succ enough), List.length_cons, List.take_succ_cons,
        List.drop_succ_cons, List.forall₂_cons_left_iff, Prod.mk.injEq]
      grind
    | nil =>
      have further {index required optional} := @ih [] index required optional (Nat.zero_le _)
      simp only [checkChildren, bind_eq_ok, pure_eq_ok, Prod.exists, further, List.length_nil,
        List.take_zero, List.drop_zero, List.forall₂_nil_left_iff, List.forall₂_cons_left_iff,
        Prod.mk.injEq, List.forall_mem_cons]
      grind

/-- An element and what checking makes of it. -/
inductive ElementChecks (registry : Registry) (source : String) (tag : Tag) (span : Span) :
    List Node → Checked → Prop where
  | mk {schema : Schema} {buckets : AttributeBuckets} {own further : List Node}
      {required optional : List Checked}
      (resolved : registry.schema? (keyOf tag.name) = some schema)
      (named : List.Forall₂ Node.HasKey schema.required own)
      (accepted : ∀ child ∈ further, checkAccepted registry source tag schema child = .ok ())
      (ownChecked : List.Forall₂ (Checks registry source) own required)
      (furtherChecked : List.Forall₂ (Checks registry source) further optional)
      (sorted : sortAttributes source tag schema tag.attributes = .ok buckets) :
      ElementChecks registry source tag span (own ++ further)
        (.element ⟨tag, schema, buckets, span⟩ required optional)

theorem checkNode_element_iff {children : List Node} :
    checkNode registry source (.element tag children span) = .ok checked ↔
      ElementChecks registry source tag span children checked := by
  rw [checkNode, bind_eq_ok]
  constructor
  · rintro ⟨schema, resolved, counted⟩
    rw [schemaOf_eq_ok] at resolved
    split at counted
    · obtain ⟨_, stopped, _⟩ := bind_eq_ok.mp counted
      exact absurd stopped throw_ne_ok
    · next enough =>
      obtain ⟨⟨required, optional⟩, childrenChecked, behind⟩ := bind_eq_ok.mp counted
      obtain ⟨buckets, sorted, same⟩ := bind_eq_ok.mp behind
      obtain ⟨named, accepted, ownChecked, furtherChecked⟩ :=
        (checkChildren_eq_ok (Nat.le_of_not_lt enough)).mp childrenChecked
      cases pure_eq_ok.mp same
      rw [← List.take_append_drop schema.required.length children]
      exact .mk resolved named accepted ownChecked furtherChecked sorted
  · rintro @⟨schema, buckets, own, further, required, optional, resolved, named, accepted,
      ownChecked, furtherChecked, sorted⟩
    have enough : schema.required.length ≤ (own ++ further).length := by
      rw [named.length_eq, List.length_append]
      exact Nat.le_add_right _ _
    refine ⟨schema, schemaOf_eq_ok.mpr resolved, ?_⟩
    rw [if_neg (Nat.not_lt_of_le enough)]
    refine bind_eq_ok.mpr ⟨(required, optional), (checkChildren_eq_ok enough).mpr ?_,
      bind_eq_ok.mpr ⟨buckets, sorted, rfl⟩⟩
    rw [named.length_eq, List.take_left, List.drop_left]
    exact ⟨named, accepted, ownChecked, furtherChecked⟩

/-! ## Checking is sound -/

theorem acceptedBy_of_checkNode {constraint : String}
    (accepted : child.AcceptedBy registry constraint)
    (check : checkNode registry source child = .ok checked) : checked.AcceptedBy constraint := by
  cases child with
  | element childTag below span =>
    obtain ⟨found, resolved, named⟩ := accepted
    obtain ⟨ownResolved, -⟩ := checkNode_element_iff.mp check
    cases resolved.symm.trans ownResolved
    simpa [Checked.AcceptedBy, Schema.tags] using named
  | text value span =>
    cases check
    exact accepted
  | block expression =>
    cases check
    trivial

/-- The checked form of a required child is an element by the required name. -/
theorem schemaName?_of_checkNode {childTag : Tag} {below : List Node}
    (check : checkNode registry source (.element childTag below span) = .ok checked) :
    checked.schemaName? = some (keyOf childTag.name) := by
  obtain ⟨resolved, -⟩ := checkNode_element_iff.mp check
  rw [Checked.schemaName?, Registry.name_of_schema? resolved]

theorem checkNode_sound (node : Node) (checked : Checked)
    (check : checkNode registry source node = .ok checked) :
    checked.erase = node ∧ checked.Fits registry := by
  induction node using Node.induction_children generalizing checked with
  | element tag children span sound =>
    obtain @⟨schema, buckets, own, further, required, optional, resolved, named, accepted,
      ownChecked, furtherChecked, sorted⟩ := checkNode_element_iff.mp check
    have each : List.Forall₂ (fun child part => part.erase = child ∧ part.Fits registry)
        (own ++ further) (required ++ optional) :=
      forall₂_imp_of_mem sound (List.rel_append ownChecked furtherChecked)
    have fit : ∀ part ∈ required ++ optional, part.Fits registry := by
      intro part member
      obtain ⟨_, -, -, fits⟩ := exists_left_of_mem each member
      exact fits
    refine ⟨?_, .element resolved ?_ ?_ (sortAttributes_divides sorted)
      (fun child member => fit child (List.mem_append_left optional member))
      (fun child member => fit child (List.mem_append_right required member))⟩
    · have same : own ++ further = (required ++ optional).map Checked.erase := by
        rw [← List.forall₂_eq_eq_eq, List.forall₂_map_right_iff]
        exact each.imp fun _ _ both => both.1.symm
      rw [Checked.erase, Checked.eraseAll_eq_map, Checked.eraseAll_eq_map, ← List.map_append, same]
    · rw [eq_comm, ← List.forall₂_eq_eq_eq, List.forall₂_map_left_iff, List.forall₂_map_right_iff]
      refine (forall₂_comp.mpr ⟨own, named, ownChecked⟩).imp ?_
      rintro _ part ⟨_, ⟨childTag, below, span, rfl, rfl⟩, checked⟩
      exact (schemaName?_of_checkNode checked).symm
    · intro part member
      obtain ⟨child, childMember, checked⟩ := exists_left_of_mem furtherChecked member
      obtain ⟨constraint, present, accepts⟩ := checkAccepted_eq_ok.mp (accepted child childMember)
      exact ⟨constraint, present, acceptedBy_of_checkNode accepts checked⟩
  | text value span =>
    cases check
    exact ⟨rfl, .text value span⟩
  | block expression =>
    cases check
    exact ⟨rfl, .block expression⟩

/-! ## A checked tree conforms -/

theorem Checked.Fits.keyOf_name {head : CheckedTag} {required optional : List Checked}
    (fits : Checked.Fits registry (.element head required optional)) :
    keyOf head.tag.name = head.schema.name := by
  cases fits with
  | element resolved => exact (Registry.name_of_schema? resolved).symm

theorem Checked.Fits.erase_acceptedBy {constraint : String} {child : Checked}
    (fits : child.Fits registry) (accepted : child.AcceptedBy constraint) :
    child.erase.AcceptedBy registry constraint := by
  cases fits with
  | text => exact accepted
  | block => trivial
  | element resolved =>
    rw [Checked.erase]
    exact ⟨_, resolved, by simpa [Checked.AcceptedBy, Schema.tags] using accepted⟩

/-- An element that stands at a place of a checked list stands there in the tree too. -/
theorem getElem?_eraseAll {children : List Checked} {index : Nat} {name : String}
    (fit : ∀ child ∈ children, child.Fits registry)
    (named : (children.map Checked.schemaName?)[index]? = some (some name)) :
    ∃ childTag below span,
      (Checked.eraseAll children)[index]? = some (.element childTag below span) ∧
        keyOf childTag.name = name := by
  rw [List.getElem?_map, Option.map_eq_some_iff] at named
  obtain ⟨child, standing, childName⟩ := named
  have childFits := fit child (List.mem_of_getElem? standing)
  cases child with
  | element head required optional =>
    cases childName
    refine ⟨head.tag, Checked.eraseAll required ++ Checked.eraseAll optional, head.span, ?_,
      childFits.keyOf_name⟩
    rw [Checked.eraseAll_eq_map, List.getElem?_map, standing, Option.map_some, Checked.erase]
  | text | block => cases childName

theorem Checked.Fits.conforms (fits : checked.Fits registry) :
    checked.erase.Conforms registry := by
  induction fits with
  | text value span | block =>
    intro tag children span inside
    cases inside
  | @element head required optional resolved names accepted divided requiredFit optionalFit
      requiredHypothesis optionalHypothesis =>
      have count : (Checked.eraseAll required).length = head.schema.required.length := by
        simpa [Checked.eraseAll_eq_map] using congrArg List.length names
      rw [Checked.erase, Node.conforms_element]
      constructor
      · refine ⟨head.schema, resolved, ?_, ?_, ?_, divided.legal⟩
        · rw [List.length_append, count]
          exact Nat.le_add_right _ _
        · intro index name expected
          have named : (required.map Checked.schemaName?)[index]? = some (some name) := by
            rw [names, List.getElem?_map, expected, Option.map_some]
          obtain ⟨childTag, below, span, standing, sameName⟩ := getElem?_eraseAll requiredFit named
          refine ⟨childTag, below, span, ?_, sameName⟩
          rw [List.getElem?_append_left (List.getElem?_eq_some_iff.mp standing).1, standing]
        · rw [← count, List.drop_left, Checked.eraseAll_eq_map]
          intro child member
          obtain ⟨part, partMember, rfl⟩ := List.mem_map.mp member
          obtain ⟨constraint, present, partAccepted⟩ := accepted part partMember
          exact ⟨constraint, present,
            (optionalFit part partMember).erase_acceptedBy partAccepted⟩
      · rw [Checked.eraseAll_eq_map, Checked.eraseAll_eq_map, ← List.map_append]
        intro child member
        obtain ⟨part, partMember, rfl⟩ := List.mem_map.mp member
        rcases List.mem_append.mp partMember with inRequired | inOptional
        · exact requiredHypothesis part inRequired
        · exact optionalHypothesis part inOptional

/-! ## Checking is complete -/

theorem ElementConforms.named {children : List Node}
    (own : ElementConforms registry tag children schema) :
    List.Forall₂ Node.HasKey schema.required (children.take schema.required.length) := by
  refine List.forall₂_iff_get.mpr ⟨?_, fun index within _ => ?_⟩
  · rw [List.length_take, Nat.min_eq_left own.enough]
  · obtain ⟨childTag, below, span, standing, named⟩ :=
      own.required index _ (List.getElem?_eq_getElem within)
    obtain ⟨_, same⟩ := List.getElem?_eq_some_iff.mp standing
    exact ⟨childTag, below, span, by simpa using same, named⟩

theorem checkNode_complete (node : Node) (conforms : node.Conforms registry) :
    ∃ checked, checkNode registry source node = .ok checked := by
  induction node using Node.induction_children with
  | element tag children span complete =>
    obtain ⟨⟨schema, own⟩, childrenConform⟩ := Node.conforms_element.mp conforms
    have each : ∀ child ∈ children, ∃ part, Checks registry source child part :=
      fun child member => complete child member (childrenConform child member)
    obtain ⟨required, ownChecked⟩ := exists_forall₂ fun child member =>
      each child (List.mem_of_mem_take member)
    obtain ⟨optional, furtherChecked⟩ := exists_forall₂ fun child member =>
      each child (List.mem_of_mem_drop member)
    obtain ⟨buckets, sorted⟩ := sortAttributes_of_legal source tag own.attributes
    refine ⟨.element ⟨tag, schema, buckets, span⟩ required optional, ?_⟩
    rw [← List.take_append_drop schema.required.length children, checkNode_element_iff]
    exact .mk own.resolved own.named (fun child member => checkAccepted_eq_ok.mpr
      (own.further child member)) ownChecked furtherChecked sorted
  | text | block => exact ⟨_, rfl⟩

end

/-- Checking a unit succeeds exactly if every element of it keeps to the rules of the registry. What
it gives then is the tree itself: the children of each element are its required and its optional
ones in a row, and its attributes are divided among its buckets. -/
theorem check_decides_conformance (unit : Markup.Source) (registry : Registry) (source : String) :
    ((∃ checked, unit.check registry source = .ok checked) ↔ unit.root.Conforms registry) ∧
      ∀ checked, unit.check registry source = .ok checked →
        checked.erase = unit.root ∧ checked.Fits registry := by
  constructor
  · constructor
    · rintro ⟨checked, check⟩
      obtain ⟨same, fits⟩ := checkNode_sound unit.root checked check
      exact same ▸ fits.conforms
    · exact checkNode_complete unit.root
  · intro checked check
    exact checkNode_sound unit.root checked check

/-- A document with required children, text, and attributes of all three kinds that stand mixed. -/
def mixedAttributes : String :=
  "<html><head><title/></head>" ++
    "<body data-k=\"1\" class=\"a b\" onload=\"go()\" data-l=\"2\" id=\"c\">\"t\"</body></html>"

theorem mixedAttributes_are_divided :
    ∃ registry unit checked,
      Registry.ofDeclarations (Html.structureElements ++ Html.metadataElements) = .ok registry ∧
        Markup.parse mixedAttributes = .ok unit ∧
        unit.check registry mixedAttributes = .ok checked ∧
        unit.root.Conforms registry ∧ checked.erase = unit.root ∧ checked.Fits registry := by
  have checks : yields (fun registry => yields (fun unit =>
      yields (fun _ => true) (unit.check registry mixedAttributes)) (Markup.parse mixedAttributes))
      (Registry.ofDeclarations (Html.structureElements ++ Html.metadataElements)) = true := by
    decide +kernel
  obtain ⟨registry, declared, parses⟩ := exists_of_yields checks
  obtain ⟨unit, parsed, checksThere⟩ := exists_of_yields parses
  obtain ⟨checked, accepted, -⟩ := exists_of_yields checksThere
  have decides := check_decides_conformance unit registry mixedAttributes
  exact ⟨registry, unit, checked, declared, parsed, accepted, decides.1.mp ⟨checked, accepted⟩,
    decides.2 checked accepted⟩

end TypedMarkup
