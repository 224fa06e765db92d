import TypedMarkup.Proofs.Plan.Fits

/-!
Contract: what further declarations leave of a registry.

Owns: `Registry.Extends`, which says that one registry has the schemas of another, the proof that
merging extends and that everything made from a registry is made from its extensions alike, and
chains of merges.

The names that a declaration may refer to decide whether it is resolved, never what it is resolved
to. So the old declarations can be resolved among more names without a change.

Does not own: whether further declarations can be merged.
-/

namespace TypedMarkup

open Markup

/-- One registry has every schema that another has. -/
def Registry.Extends (larger smaller : Registry) : Prop :=
  ∀ name schema, smaller.schema? name = some schema → larger.schema? name = some schema

/-! ## Resolving among more names -/

section

variable {declaration : Declaration} {elements categories moreElements moreCategories : List String}
  {schema other : Schema}

/-- A declaration that is resolved among some names has the same schema wherever it is resolved. -/
theorem Declaration.resolve_unique (resolved : declaration.resolve elements categories = .ok schema)
    (resolvedAgain : declaration.resolve moreElements moreCategories = .ok other) :
    schema = other := by
  obtain ⟨attributes, attributesResolved, behind⟩ := bind_eq_ok.mp resolved
  obtain ⟨sameAttributes, attributesAgain, behindAgain⟩ := bind_eq_ok.mp resolvedAgain
  obtain ⟨_, _, constrained⟩ := bind_eq_ok.mp behind
  obtain ⟨_, _, constrainedAgain⟩ := bind_eq_ok.mp behindAgain
  obtain ⟨_, _, made⟩ := bind_eq_ok.mp constrained
  obtain ⟨_, _, madeAgain⟩ := bind_eq_ok.mp constrainedAgain
  rw [attributesResolved] at attributesAgain
  cases attributesAgain
  rw [← pure_eq_ok.mp made, ← pure_eq_ok.mp madeAgain]

theorem Declaration.resolve_all_unique {declarations : List Declaration}
    {schemas others : List Schema}
    (resolved : declarations.mapM (fun declaration => declaration.resolve elements categories) =
      .ok schemas)
    (resolvedAgain : declarations.mapM
      (fun declaration => declaration.resolve moreElements moreCategories) = .ok others) :
    schemas = others := by
  have matched := mapM_eq_ok.mp resolved
  have matchedAgain := mapM_eq_ok.mp resolvedAgain
  clear resolved resolvedAgain
  induction matched generalizing others with
  | nil =>
    cases matchedAgain
    rfl
  | cons here _ ih =>
    cases matchedAgain with
    | cons again further =>
      rw [resolve_unique here again, ih further]

end

section

variable {declarations more : List Declaration} {registry merged : Registry}

theorem Registry.ofDeclarations_eq_ok :
    Registry.ofDeclarations declarations = .ok registry ↔
      registry.declarations = declarations ∧
        Declaration.resolveAll declarations = .ok registry.schemas := by
  rw [Registry.ofDeclarations, map_eq_ok]
  constructor
  · rintro ⟨schemas, resolved, rfl⟩
    exact ⟨rfl, resolved⟩
  · rintro ⟨rfl, resolved⟩
    exact ⟨registry.schemas, resolved, rfl⟩

theorem Registry.merge_eq_ok {text : String} :
    registry.merge text = .ok merged ↔
      ∃ found, Declaration.parseAll text = .ok found ∧
        Registry.ofDeclarations (registry.declarations ++ found) = .ok merged :=
  bind_eq_ok

/-- Further declarations leave the old schemas where they are and put theirs behind them. -/
theorem Registry.schemas_of_more (made : Registry.ofDeclarations declarations = .ok registry)
    (madeMore : Registry.ofDeclarations (declarations ++ more) = .ok merged) :
    registry.schemas <+: merged.schemas := by
  obtain ⟨-, resolved⟩ := Registry.ofDeclarations_eq_ok.mp made
  obtain ⟨-, resolvedMore⟩ := Registry.ofDeclarations_eq_ok.mp madeMore
  obtain ⟨_, _, schemasMade⟩ := bind_eq_ok.mp resolved
  obtain ⟨_, _, allMade⟩ := bind_eq_ok.mp resolvedMore
  rw [List.mapM_append, bind_eq_ok] at allMade
  obtain ⟨old, oldMade, behind⟩ := allMade
  obtain ⟨new, _, together⟩ := bind_eq_ok.mp behind
  rw [← pure_eq_ok.mp together, Declaration.resolve_all_unique schemasMade oldMade]
  exact List.prefix_append old new

theorem Registry.extends_of_schemas (kept : registry.schemas <+: merged.schemas) :
    merged.Extends registry := by
  intro name schema found
  obtain ⟨new, together⟩ := kept
  rw [Registry.schema?, ← together, List.find?_append]
  rw [Registry.schema?] at found
  rw [found]
  rfl

end

/-! ## Everything made from a registry is made from its extensions -/

section

variable {registry larger : Registry} {source : String}

theorem Markup.Node.AcceptedBy.mono (grown : larger.Extends registry) {constraint : String}
    {child : Node} (accepted : child.AcceptedBy registry constraint) :
    child.AcceptedBy larger constraint := by
  cases child with
  | element tag children span =>
    obtain ⟨schema, resolved, named⟩ := accepted
    exact ⟨schema, grown _ _ resolved, named⟩
  | text value span => exact accepted
  | block expression => trivial

theorem checkAccepted_mono (grown : larger.Extends registry) {tag : Tag} {schema : Schema}
    {child : Node} (accepts : checkAccepted registry source tag schema child = .ok ()) :
    checkAccepted larger source tag schema child = .ok () := by
  obtain ⟨constraint, present, accepted⟩ := checkAccepted_eq_ok.mp accepts
  exact checkAccepted_eq_ok.mpr ⟨constraint, present, accepted.mono grown⟩

theorem checkNode_mono (grown : larger.Extends registry) (node : Node) (checked : Checked)
    (check : checkNode registry source node = .ok checked) :
    checkNode larger source node = .ok checked := by
  induction node using Node.induction_children generalizing checked with
  | element tag children span again =>
    obtain ⟨resolved, named, accepted, ownChecked, furtherChecked, sorted⟩ :=
      checkNode_element_iff.mp check
    obtain ⟨ownAgain, furtherAgain⟩ := List.forall_mem_append.mp again
    exact checkNode_element_iff.mpr (.mk (grown _ _ resolved) named
      (fun child member => checkAccepted_mono grown (accepted child member))
      (forall₂_imp_of_mem ownAgain ownChecked) (forall₂_imp_of_mem furtherAgain furtherChecked)
      sorted)
  | text | block => exact check

theorem compile_mono (grown : larger.Extends registry) {requested : Option String} {plan : Plan}
    (compiled : compile source registry requested = .ok plan) :
    compile source larger requested = .ok plan := by
  obtain ⟨unit, checked, output, parsed, accepted, resolved, root, planned, same⟩ :=
    compile_eq_ok.mp compiled
  have acceptedAgain := checkNode_mono grown unit.root checked accepted
  exact compile_eq_ok.mpr
    ⟨unit, checked, output, parsed, acceptedAgain, resolved, root, planned, same⟩

end

/-! ## Chains of merges -/

/-- A chain of merges ends in what all its declarations together are resolved to. -/
theorem Registry.foldlM_merge {declarations : List Declaration} {registry result : Registry}
    {texts : List String} (made : Registry.ofDeclarations declarations = .ok registry)
    (chain : texts.foldlM Registry.merge registry = .ok result) :
    ∃ lists, texts.mapM Declaration.parseAll = .ok lists ∧
      Registry.ofDeclarations (declarations ++ lists.flatten) = .ok result := by
  induction texts generalizing declarations registry with
  | nil =>
    rw [List.foldlM_nil, pure_eq_ok] at chain
    subst chain
    refine ⟨[], rfl, ?_⟩
    rw [List.flatten_nil, List.append_nil]
    exact made
  | cons text rest ih =>
    rw [List.foldlM_cons, bind_eq_ok] at chain
    obtain ⟨merged, extended, further⟩ := chain
    obtain ⟨found, parsed, madeMore⟩ := Registry.merge_eq_ok.mp extended
    rw [(Registry.ofDeclarations_eq_ok.mp made).1] at madeMore
    obtain ⟨lists, parsedAll, resolvedAll⟩ := ih madeMore further
    refine ⟨found :: lists, ?_, ?_⟩
    · rw [List.mapM_cons, parsed, bind_eq_ok]
      exact ⟨found, rfl, bind_eq_ok.mpr ⟨lists, parsedAll, rfl⟩⟩
    · rw [List.flatten_cons, ← List.append_assoc]
      exact resolvedAll

/-- Extending a registry is conservative. When a text is merged into it, every element keeps its
schema, and every source that compiles compiles to the same plan, whatever output is requested. When
a chain of texts is merged into it, the result is the registry of all the declarations at once. -/
theorem extended_registry_is_conservative {declarations : List Declaration} {registry : Registry}
    (made : Registry.ofDeclarations declarations = .ok registry) :
    (∀ text merged, registry.merge text = .ok merged →
      (∀ name schema, registry.schema? name = some schema →
        merged.schema? name = some schema) ∧
      ∀ source requested plan, compile source registry requested = .ok plan →
        compile source merged requested = .ok plan) ∧
    ∀ (texts : List String) (result : Registry),
      texts.foldlM Registry.merge registry = .ok result →
      ∃ lists, texts.mapM Declaration.parseAll = .ok lists ∧
        Registry.ofDeclarations (declarations ++ lists.flatten) = .ok result := by
  refine ⟨?_, fun texts result chain => Registry.foldlM_merge made chain⟩
  intro text merged extended
  obtain ⟨found, -, madeMore⟩ := Registry.merge_eq_ok.mp extended
  rw [(Registry.ofDeclarations_eq_ok.mp made).1] at madeMore
  have larger := Registry.extends_of_schemas (Registry.schemas_of_more made madeMore)
  exact ⟨larger, fun source requested plan compiled => compile_mono larger compiled⟩

/-- An element of a category that others refer to, and one that requires it as a child. -/
def furtherDeclarations : List String :=
  ["panel in [FlowContent] with FlowContent;",
    "card \x7bstate: String\x7d in [FlowContent] with [panel] PhrasingContent"]

theorem furtherDeclarations_are_conservative :
    ∃ registry merged result plan lists,
      Registry.ofDeclarations (Html.structureElements ++ Html.metadataElements) = .ok registry ∧
      registry.merge "panel in [FlowContent] with FlowContent;" = .ok merged ∧
      (∀ name schema, registry.schema? name = some schema →
        merged.schema? name = some schema) ∧
      compile "<head><title>\"t\"</title></head>" registry none = .ok plan ∧
      compile "<head><title>\"t\"</title></head>" merged none = .ok plan ∧
      furtherDeclarations.foldlM Registry.merge registry = .ok result ∧
      furtherDeclarations.mapM Declaration.parseAll = .ok lists ∧
      Registry.ofDeclarations
        (Html.structureElements ++ Html.metadataElements ++ lists.flatten) = .ok result := by
  have merges : yields (fun registry =>
      yields (fun _ => true) (registry.merge "panel in [FlowContent] with FlowContent;") &&
        yields (fun _ => true) (compile "<head><title>\"t\"</title></head>" registry none) &&
        yields (fun _ => true) (furtherDeclarations.foldlM Registry.merge registry))
      (Registry.ofDeclarations (Html.structureElements ++ Html.metadataElements)) = true := by
    decide +kernel
  obtain ⟨registry, made, decided⟩ := exists_of_yields merges
  simp only [Bool.and_eq_true] at decided
  obtain ⟨⟨mergesThere, compilesThere⟩, chainThere⟩ := decided
  obtain ⟨merged, extended, -⟩ := exists_of_yields mergesThere
  obtain ⟨plan, compiled, -⟩ := exists_of_yields compilesThere
  obtain ⟨result, chain, -⟩ := exists_of_yields chainThere
  obtain ⟨conservative, atOnce⟩ := extended_registry_is_conservative made
  obtain ⟨schemasKept, plansKept⟩ := conservative _ merged extended
  obtain ⟨lists, parsed, resolved⟩ := atOnce furtherDeclarations result chain
  exact ⟨registry, merged, result, plan, lists, made, extended, schemasKept, compiled,
    plansKept _ _ plan compiled, chain, parsed, resolved⟩

end TypedMarkup
