import TypedMarkup.Proofs.Plan.Places

/-!
Contract: what texts make, by the trees that they write down.

Owns: `Writes`, which says that a text writes down a tree, `Makes`, which says that it is compiled
and built to a document, and the proof that the tree decides what a text makes, and neither the
places of its parts nor the rest of the text.
-/

namespace TypedMarkup

open Markup

/-- A tree that was read from a text is checked, planned and built to a document. -/
def Markup.Node.Builds (registry : Registry) (output : Option OutputType) (scope : Scope)
    (source : String) (node : Node) (tree : Document.Node) : Prop :=
  ∃ checked plan, checkNode registry source node = .ok checked ∧
    Draft.planNode output source none checked = .ok plan ∧
    Build.buildNode output scope plan = .ok tree

/-- A text is compiled and built to a document. -/
def Makes (registry : Registry) (requested : Option String) (scope : Scope) (source : String)
    (tree : Document.Node) : Prop :=
  ∃ plan, compile source registry requested = .ok plan ∧ plan.build scope = .ok tree

/-- A text writes down a tree, wherever its parts stand, and maybe the name of an output type behind
it. -/
def Writes (annotated : Option String) (source : String) (node : Markup.Node) : Prop :=
  ∃ unit, Markup.parse source = .ok unit ∧ unit.root.unplaced = node.unplaced ∧
    unit.output.map Prod.fst = annotated

namespace Markup

mutual

/-- Whether two trees differ in their places only. -/
def Node.alike : Node → Node → Bool
  | .element tag children _, .element otherTag others _ =>
    decide (tag.unplaced = otherTag.unplaced) && alikeAll children others
  | .text value _, .text other _ => decide (value = other)
  | .block expression, .block other => decide (expression.unplaced = other.unplaced)
  | _, _ => false

def alikeAll : List Node → List Node → Bool
  | [], [] => true
  | node :: rest, other :: others => node.alike other && alikeAll rest others
  | _, _ => false

end

mutual

theorem Node.alike_iff (node other : Node) :
    node.alike other = true ↔ node.unplaced = other.unplaced := by
  cases node with
  | element tag children span =>
    cases other with
    | element otherTag others otherSpan =>
      simp [Node.alike, Node.unplaced, alikeAll_iff children others]
    | text | block => simp [Node.alike, Node.unplaced]
  | text | block => cases other <;> simp [Node.alike, Node.unplaced]

theorem alikeAll_iff (nodes others : List Node) :
    alikeAll nodes others = true ↔ unplacedAll nodes = unplacedAll others := by
  cases nodes with
  | nil => cases others <;> simp [alikeAll, unplacedAll]
  | cons node rest =>
    cases others with
    | nil => simp [alikeAll, unplacedAll]
    | cons other more =>
      simp [alikeAll, unplacedAll, Node.alike_iff node other, alikeAll_iff rest more]

end

end Markup

instance (annotated : Option String) (source : String) (node : Markup.Node) :
    Decidable (Writes annotated source node) :=
  decidable_of_iff
    (yields (fun unit => unit.root.alike node && decide (unit.output.map Prod.fst = annotated))
      (Markup.parse source) = true) <| by
    unfold Writes
    cases Markup.parse source with
    | ok unit => simp [yields, Node.alike_iff]
    | error failure => simp [yields]

section

variable {registry : Registry} {output : Option OutputType} {requested : Option String}
  {scope : Scope} {source other : String} {node : Markup.Node} {tree : Document.Node}

theorem builds_unplaced :
    node.unplaced.Builds registry output scope other tree ↔
      node.Builds registry output scope source tree := by
  have checks : Mirrors Checked.unplaced (checkNode registry other node.unplaced)
      (checkNode registry source node) :=
    checkNode_unplaced node
  have plans : ∀ checked : Checked, Mirrors NodePlan.unplaced
      (Draft.planNode output other none checked.unplaced)
      (Draft.planNode output source none checked) :=
    Draft.planNode_unplaced none
  constructor
  · rintro ⟨_, _, checked, planned, built⟩
    obtain ⟨ownChecked, ownCheck, rfl⟩ := checks.eq_ok_iff.mp checked
    obtain ⟨ownPlan, ownPlanned, rfl⟩ := (plans ownChecked).eq_ok_iff.mp planned
    exact ⟨ownChecked, ownPlan, ownCheck, ownPlanned,
      (Build.buildNode_unplaced ownPlan).id_eq_ok.mp built⟩
  · rintro ⟨checked, plan, check, planned, built⟩
    exact ⟨checked.unplaced, plan.unplaced, checks.eq_ok_iff.mpr ⟨checked, check, rfl⟩,
      (plans checked).eq_ok_iff.mpr ⟨plan, planned, rfl⟩,
      (Build.buildNode_unplaced plan).id_eq_ok.mpr built⟩

/-- Trees that differ in their places only are built alike, whatever texts they come from. -/
theorem builds_congr {otherNode : Markup.Node} (same : node.unplaced = otherNode.unplaced) :
    node.Builds registry output scope source tree ↔
      otherNode.Builds registry output scope other tree := by
  have first : node.unplaced.Builds registry output scope "" tree ↔
      node.Builds registry output scope source tree := builds_unplaced
  have second : otherNode.unplaced.Builds registry output scope "" tree ↔
      otherNode.Builds registry output scope other tree := builds_unplaced
  rw [← first, ← second, same]

/-- The output type of a unit with the given name of one behind it. -/
def outputOf (annotated requested : Option String) : Except Failure (Option OutputType) :=
  resolveOutput ⟨.text "" .origin, annotated.map fun name => (name, .origin), .origin⟩ requested ""

theorem resolveOutput_place (unit : Markup.Source) :
    Mirrors id (resolveOutput unit requested source)
      (outputOf (unit.output.map Prod.fst) requested) := by
  obtain ⟨root, output, span⟩ := unit
  cases output with
  | none => exact .refl _
  | some written =>
    simp only [outputOf, resolveOutput, Option.map_some]
    cases OutputType.ofName? written.1 with
    | none => trivial
    | some declared =>
      cases requested with
      | none => rfl
      | some name =>
        simp only [pure_bind]
        split
        · split
          · rfl
          · trivial
        · trivial

theorem makes_iff_builds {annotated : Option String} (writes : Writes annotated source node) :
    Makes registry requested scope source tree ↔
      ∃ output, outputOf annotated requested = .ok output ∧
        node.Builds registry output scope "" tree := by
  obtain ⟨unit, parsed, sameRoot, rfl⟩ := writes
  have outputs : Mirrors id (resolveOutput unit requested source)
      (outputOf (unit.output.map Prod.fst) requested) := resolveOutput_place unit
  constructor
  · rintro ⟨plan, compiled, built⟩
    obtain ⟨ownUnit, checked, output, ownParsed, check, resolved, root, planned, rfl⟩ :=
      compile_eq_ok.mp compiled
    cases ownParsed.symm.trans parsed
    have builds : unit.root.Builds registry output scope source tree :=
      ⟨checked, root, check, planned, mapError_eq_ok.mp built⟩
    exact ⟨output, outputs.id_eq_ok.mp resolved, (builds_congr sameRoot).mp builds⟩
  · rintro ⟨output, found, builds⟩
    have resolved := outputs.id_eq_ok.mpr found
    obtain ⟨checked, root, check, planned, built⟩ :
        unit.root.Builds registry output scope source tree := (builds_congr sameRoot).mpr builds
    exact ⟨⟨root, output, source⟩,
      compile_eq_ok.mpr ⟨unit, checked, output, parsed, check, resolved, root, planned, rfl⟩,
      mapError_eq_ok.mpr built⟩

end

end TypedMarkup
