import Mathlib.Data.List.Nodup
import TypedMarkup.Proofs.Schema.Extension

/-!
Contract: declarations are resolved together, in any order.

Owns: `TypeSpec.Denotes`, `Declaration.Consistent` and `Declaration.Describes`, which say without
running a check what a type stands for, which declarations can be resolved, and what schema a
declaration is resolved to, and the theorem that the order of declarations changes none of it.

A declaration is checked against the names of all declarations and resolved by itself. So an order
can only decide which of several faults is found first.
-/

namespace TypedMarkup

/-! ## Types -/

/-- What a written type stands for: a known name without arguments, or a collection of one item
type. -/
inductive TypeSpec.Denotes : TypeSpec → AttributeType → Prop where
  | named {name : String} {type : AttributeType}
      (known : AttributeType.named.get? name = some type) :
      Denotes (.mk name []) type
  | collection (container : Container) {item : TypeSpec} {type : AttributeType}
      (itemDenotes : Denotes item type) :
      Denotes (.mk container.name [item]) (.spaced container type)

theorem Container.ofName?_eq_some {name : String} {container : Container} :
    Container.ofName? name = some container ↔ container.name = name := by
  constructor
  · intro found
    simpa using List.find?_some found
  · rintro rfl
    cases container <;> decide

/-- No collection is among the types that a bare name stands for. -/
theorem named_not_collection :
    ∀ entry ∈ AttributeType.named, Container.ofName? entry.1 = none := by
  decide +kernel

theorem TypeSpec.denotes_of_resolve (spec : TypeSpec) (type : AttributeType)
    (resolved : spec.resolve = .ok type) : spec.Denotes type := by
  match spec with
  | .mk name arguments =>
    rw [TypeSpec.resolve] at resolved
    split at resolved
    · next container isContainer =>
      rw [← Container.ofName?_eq_some.mp isContainer]
      match arguments with
      | [argument] =>
        rw [TypeSpec.resolveItem] at resolved
        obtain ⟨item, itemResolved, rfl⟩ := map_eq_ok.mp resolved
        exact .collection container (TypeSpec.denotes_of_resolve argument item itemResolved)
      | [] | _ :: _ :: _ => simp [TypeSpec.resolveItem] at resolved
    · split at resolved
      · next bare =>
        cases List.isEmpty_iff.mp bare
        split at resolved
        · next found known =>
          cases resolved
          exact .named known
        · cases resolved
      · cases resolved

theorem TypeSpec.resolve_eq_ok {spec : TypeSpec} {type : AttributeType} :
    spec.resolve = .ok type ↔ spec.Denotes type := by
  refine ⟨TypeSpec.denotes_of_resolve spec type, ?_⟩
  intro denotes
  induction denotes with
  | @named name type known =>
    have noContainer := named_not_collection _ (Table.mem_of_get? known)
    dsimp only at noContainer
    rw [TypeSpec.resolve, noContainer]
    simp only [List.isEmpty_nil, if_true, known]
  | collection container _ itemResolved =>
    rw [TypeSpec.resolve, Container.ofName?_eq_some.mpr rfl]
    dsimp only
    rw [TypeSpec.resolveItem, itemResolved]
    rfl

/-! ## One declaration -/

namespace Declaration

/-- The attribute of a declaration that counts for a key: the last one written. -/
def lastOf? (declaration : Declaration) (key : String) : Option AttributeDeclaration :=
  declaration.attributes.reverse.find? fun found => found.name == key

/-- The type that an element gives to a key: that of its own last attribute of the key, or else of
the global attribute. -/
def Gives (declaration : Declaration) (key : String) (type : AttributeType) : Prop :=
  match declaration.lastOf? key with
  | some found => found.type.Denotes type
  | none => globalAttributes.get? key = some type

/-- The schema that a declaration writes down. -/
structure Describes (declaration : Declaration) (schema : Schema) : Prop where
  name : schema.name = declaration.name
  attributes : ∀ key type, schema.attributes.get? key = some type ↔ declaration.Gives key type
  required : schema.required = declaration.required.map Prod.fst
  constraint : schema.constraint = declaration.constraint.map Prod.fst
  categories : schema.categories = declaration.categories

structure RefersTo (declaration : Declaration) (elements categories : List String) : Prop where
  types : ∀ found ∈ declaration.attributes, ∃ type, found.type.Denotes type
  required : ∀ child ∈ declaration.required, child.1 ∈ elements
  constraint : ∀ name span, declaration.constraint = some (name, span) →
    name ∈ elements ∨ name ∈ categories

section

variable {declaration : Declaration} {elements categories : List String} {schema : Schema}

/-- Attributes are written over the global ones in order, each with the type it stands for. -/
theorem resolveAttributes_eq_ok {attributes : Table AttributeType} :
    declaration.resolveAttributes = .ok attributes ↔
      ∃ entries : List (String × AttributeType),
        List.Forall₂ (fun found entry => found.name = entry.1 ∧ found.type.Denotes entry.2)
          declaration.attributes entries ∧
        globalAttributes.putAll entries = attributes := by
  unfold resolveAttributes
  generalize globalAttributes = start
  generalize declaration.attributes = written
  induction written generalizing start with
  | nil =>
    rw [List.foldlM_nil, pure_eq_ok]
    simp [Table.putAll]
  | cons found rest ih =>
    rw [List.foldlM_cons, bind_eq_ok]
    constructor
    · rintro ⟨next, stepped, further⟩
      split at stepped
      · next type typeResolved =>
        cases stepped
        obtain ⟨entries, matched, same⟩ := (ih _).mp further
        have denotes := TypeSpec.resolve_eq_ok.mp typeResolved
        exact ⟨(found.name, type) :: entries, .cons ⟨rfl, denotes⟩ matched, same⟩
      · cases stepped
    · rintro ⟨entries, matched, same⟩
      cases matched with
      | @cons _ entry _ more here further =>
        refine ⟨start.put entry.1 entry.2, ?_,
          (ih _).mpr ⟨more, further, same⟩⟩
        rw [TypeSpec.resolve_eq_ok.mpr here.2, here.1]

theorem checkRequired_eq_ok :
    declaration.checkRequired elements = .ok () ↔
      ∀ child ∈ declaration.required, child.1 ∈ elements := by
  unfold checkRequired
  rw [List.forM_eq_forM]
  generalize declaration.required = required
  induction required with
  | nil => simp [pure, Except.pure]
  | cons child rest ih =>
    rw [List.forM_cons, bind_eq_ok, List.forall_mem_cons, ← ih]
    by_cases declared : child.1 ∈ elements
    · simp [declared]
    · simp [declared]

theorem checkConstraint_eq_ok :
    declaration.checkConstraint elements categories = .ok () ↔
      ∀ name span, declaration.constraint = some (name, span) →
        name ∈ elements ∨ name ∈ categories := by
  unfold checkConstraint
  cases declaration.constraint with
  | none => simp
  | some found =>
    obtain ⟨name, span⟩ := found
    by_cases known : name ∈ elements ∨ name ∈ categories
    · simp [known]
    · simp [known]

theorem exists_types_iff :
    (∃ entries : List (String × AttributeType),
      List.Forall₂ (fun found entry => found.name = entry.1 ∧ found.type.Denotes entry.2)
        declaration.attributes entries) ↔
      ∀ found ∈ declaration.attributes, ∃ type, found.type.Denotes type := by
  constructor
  · rintro ⟨entries, matched⟩ found member
    obtain ⟨entry, -, -, denotes⟩ := exists_right_of_mem matched member
    exact ⟨entry.2, denotes⟩
  · intro typed
    refine exists_forall₂ fun found member => ?_
    obtain ⟨type, denotes⟩ := typed found member
    exact ⟨(found.name, type), rfl, denotes⟩

/-- A declaration is resolved exactly when all it refers to is there. -/
theorem resolve_ok_iff :
    (∃ schema, declaration.resolve elements categories = .ok schema) ↔
      declaration.RefersTo elements categories := by
  constructor
  · rintro ⟨schema, resolved⟩
    obtain ⟨attributes, attributesResolved, behind⟩ := bind_eq_ok.mp resolved
    obtain ⟨_, requiredThere, constrained⟩ := bind_eq_ok.mp behind
    obtain ⟨_, constraintThere, _⟩ := bind_eq_ok.mp constrained
    obtain ⟨entries, matched, _⟩ := resolveAttributes_eq_ok.mp attributesResolved
    exact ⟨exists_types_iff.mp ⟨entries, matched⟩, checkRequired_eq_ok.mp requiredThere,
      checkConstraint_eq_ok.mp constraintThere⟩
  · intro there
    obtain ⟨entries, matched⟩ := exists_types_iff.mpr there.types
    have attributesResolved := resolveAttributes_eq_ok.mpr ⟨entries, matched, rfl⟩
    have requiredThere := checkRequired_eq_ok.mpr there.required
    have constraintThere := checkConstraint_eq_ok.mpr there.constraint
    exact ⟨_, bind_eq_ok.mpr ⟨_, attributesResolved,
      bind_eq_ok.mpr ⟨(), requiredThere, bind_eq_ok.mpr ⟨(), constraintThere, rfl⟩⟩⟩⟩

/-- The first attribute of a key and the first entry of it stand across from each other. -/
theorem find?_matches_lookup {written : List AttributeDeclaration}
    {entries : List (String × AttributeType)}
    (matched : List.Forall₂ (fun found entry => found.name = entry.1 ∧ found.type.Denotes entry.2)
      written entries) (key : String) :
    Option.Rel (fun found type => found.type.Denotes type)
      (written.find? fun found => found.name == key) (entries.lookup key) := by
  induction matched with
  | nil => exact .none
  | @cons found entry rest more here _ ih =>
    rw [List.find?_cons, List.lookup_cons, ← here.1]
    by_cases same : found.name = key
    · simp only [same, beq_self_eq_true]
      exact .some here.2
    · have differs : (found.name == key) = false := by simpa using same
      have differsAgain : (key == found.name) = false := by simpa using Ne.symm same
      simp only [differs, differsAgain]
      exact ih

theorem describes_of_resolve (resolved : declaration.resolve elements categories = .ok schema) :
    declaration.Describes schema := by
  obtain ⟨attributes, attributesResolved, behind⟩ := bind_eq_ok.mp resolved
  obtain ⟨_, _, constrained⟩ := bind_eq_ok.mp behind
  obtain ⟨_, _, made⟩ := bind_eq_ok.mp constrained
  cases pure_eq_ok.mp made
  obtain ⟨entries, matched, rfl⟩ := resolveAttributes_eq_ok.mp attributesResolved
  refine ⟨rfl, ?_, rfl, rfl, rfl⟩
  intro key type
  have last := find?_matches_lookup (List.rel_reverse matched) key
  dsimp only
  rw [Table.get?_putAll, Gives, lastOf?]
  generalize declaration.attributes.reverse.find? (fun found => found.name == key) = own at last ⊢
  generalize entries.reverse.lookup key = entry at last ⊢
  cases last with
  | none => rw [Option.none_or]
  | @some found given denotes =>
    rw [Option.some_or, Option.some.injEq]
    constructor
    · rintro rfl
      exact denotes
    · intro other
      have resolvedHere := TypeSpec.resolve_eq_ok.mpr denotes
      rw [TypeSpec.resolve_eq_ok.mpr other] at resolvedHere
      cases resolvedHere
      rfl

end

/-! ## All declarations together -/

/-- Declarations that can be resolved together: no element is declared twice, every attribute has a
type, every required child is a declared element, and every constraint is a declared element, a
category of some declaration or the category of text. -/
structure Consistent (declarations : List Declaration) : Prop where
  distinct : (declarations.map Declaration.name).Nodup
  types : ∀ declaration ∈ declarations, ∀ found ∈ declaration.attributes,
    ∃ type, found.type.Denotes type
  required : ∀ declaration ∈ declarations, ∀ child ∈ declaration.required,
    ∃ other ∈ declarations, other.name = child.1
  constraint : ∀ declaration ∈ declarations, ∀ name span,
    declaration.constraint = some (name, span) →
      (∃ other ∈ declarations, other.name = name) ∨
        (∃ other ∈ declarations, name ∈ other.categories) ∨ name = textCategory

theorem Consistent.perm {declarations reordered : List Declaration}
    (permutation : declarations.Perm reordered) (consistent : Consistent declarations) :
    Consistent reordered := by
  have same : ∀ declaration, declaration ∈ reordered ↔ declaration ∈ declarations :=
    fun _ => permutation.mem_iff.symm
  refine ⟨(permutation.map Declaration.name).nodup_iff.mp consistent.distinct, ?_, ?_, ?_⟩
  · intro declaration member
    exact consistent.types declaration ((same declaration).mp member)
  · intro declaration member
    simpa only [same] using consistent.required declaration ((same declaration).mp member)
  · intro declaration member
    simpa only [same] using consistent.constraint declaration ((same declaration).mp member)

theorem checkDistinct_eq_ok {seen : List String} {declarations : List Declaration} :
    checkDistinct seen declarations = .ok () ↔
      (declarations.map Declaration.name).Nodup ∧
        ∀ declaration ∈ declarations, declaration.name ∉ seen := by
  induction declarations generalizing seen with
  | nil => simp [checkDistinct]
  | cons declaration rest ih =>
    rw [checkDistinct]
    by_cases repeated : declaration.name ∈ seen
    · simp [repeated]
    · rw [if_neg (by simpa using repeated), ih, List.map_cons, List.nodup_cons,
        List.forall_mem_cons]
      have apart : (∀ other ∈ rest, other.name ∉ declaration.name :: seen) ↔
          declaration.name ∉ rest.map Declaration.name ∧ ∀ other ∈ rest, other.name ∉ seen := by
        simp only [List.mem_cons, not_or, List.mem_map, not_exists, not_and, forall_and]
      rw [apart]
      tauto

/-- The names that declarations may refer to as elements. -/
abbrev elementsOf (declarations : List Declaration) : List String :=
  declarations.map Declaration.name

/-- The names that declarations may refer to as categories. -/
abbrev categoriesOf (declarations : List Declaration) : List String :=
  declarations.flatMap Declaration.categories ++ [textCategory]

section

variable {declarations reordered : List Declaration} {schemas : List Schema}

theorem resolveAll_eq_ok :
    resolveAll declarations = .ok schemas ↔
      (declarations.map Declaration.name).Nodup ∧
        List.Forall₂ (fun declaration schema => declaration.resolve (elementsOf declarations)
          (categoriesOf declarations) = .ok schema) declarations schemas := by
  have fresh : ∀ declaration ∈ declarations, declaration.name ∉ ([] : List String) := by simp
  unfold resolveAll
  rw [bind_eq_ok]
  constructor
  · rintro ⟨_, distinct, resolved⟩
    exact ⟨(checkDistinct_eq_ok.mp distinct).1, mapM_eq_ok.mp resolved⟩
  · rintro ⟨nodup, matched⟩
    exact ⟨(), checkDistinct_eq_ok.mpr ⟨nodup, fresh⟩, mapM_eq_ok.mpr matched⟩

theorem consistent_iff_refersTo :
    Consistent declarations ↔
      (declarations.map Declaration.name).Nodup ∧
        ∀ declaration ∈ declarations,
          declaration.RefersTo (elementsOf declarations) (categoriesOf declarations) := by
  constructor
  · intro consistent
    refine ⟨consistent.distinct, ?_⟩
    intro declaration member
    refine ⟨consistent.types declaration member, ?_, ?_⟩
    · simpa using consistent.required declaration member
    · simpa [or_assoc] using consistent.constraint declaration member
  · rintro ⟨distinct, each⟩
    refine ⟨distinct, ?_, ?_, ?_⟩
    · intro declaration member
      exact (each declaration member).types
    · intro declaration member
      simpa using (each declaration member).required
    · intro declaration member
      simpa [or_assoc] using (each declaration member).constraint

end

end Declaration

section

variable {declarations reordered : List Declaration} {registry other : Registry} {schema : Schema}

/-- A declaration is resolved among others. -/
abbrev Declaration.ResolvedAmong (declarations : List Declaration) (declaration : Declaration)
    (schema : Schema) : Prop :=
  declaration.resolve (elementsOf declarations) (categoriesOf declarations) = .ok schema

theorem Registry.ofDeclarations_resolved
    (made : Registry.ofDeclarations declarations = .ok registry) :
    (declarations.map Declaration.name).Nodup ∧
      List.Forall₂ (Declaration.ResolvedAmong declarations) declarations registry.schemas := by
  obtain ⟨-, resolved⟩ := Registry.ofDeclarations_eq_ok.mp made
  exact Declaration.resolveAll_eq_ok.mp resolved

theorem ofDeclarations_ok_iff :
    (∃ registry, Registry.ofDeclarations declarations = .ok registry) ↔
      Declaration.Consistent declarations := by
  rw [Declaration.consistent_iff_refersTo]
  constructor
  · rintro ⟨registry, made⟩
    obtain ⟨distinct, matched⟩ := Registry.ofDeclarations_resolved made
    refine ⟨distinct, ?_⟩
    intro declaration member
    obtain ⟨schema, _, here⟩ := exists_right_of_mem matched member
    exact Declaration.resolve_ok_iff.mp ⟨schema, here⟩
  · rintro ⟨distinct, each⟩
    obtain ⟨schemas, matched⟩ := exists_forall₂ fun declaration member =>
      Declaration.resolve_ok_iff.mpr (each declaration member)
    have resolved := Declaration.resolveAll_eq_ok.mpr ⟨distinct, matched⟩
    exact ⟨⟨declarations, schemas⟩, Registry.ofDeclarations_eq_ok.mpr ⟨rfl, resolved⟩⟩

theorem ofDeclarations_error_iff :
    (∃ error, Registry.ofDeclarations declarations = .error error) ↔
      ¬ Declaration.Consistent declarations := by
  rw [← ofDeclarations_ok_iff]
  cases Registry.ofDeclarations declarations with
  | ok | error => simp

theorem Registry.names_ofDeclarations (made : Registry.ofDeclarations declarations = .ok registry) :
    registry.names = declarations.map Declaration.name := by
  obtain ⟨-, matched⟩ := Registry.ofDeclarations_resolved made
  rw [Registry.names, ← List.forall₂_eq_eq_eq, List.forall₂_map_left_iff,
    List.forall₂_map_right_iff]
  exact matched.flip.imp fun _ _ here => (Declaration.describes_of_resolve here).name

/-- A registry has under a name what the declaration of the name is resolved to. -/
theorem Registry.schema?_eq_some (made : Registry.ofDeclarations declarations = .ok registry)
    {name : String} :
    registry.schema? name = some schema ↔
      ∃ declaration ∈ declarations, declaration.name = name ∧
        declaration.ResolvedAmong declarations schema := by
  obtain ⟨distinct, matched⟩ := Registry.ofDeclarations_resolved made
  have unique : (registry.schemas.map Schema.name).Nodup := by
    have names := Registry.names_ofDeclarations made
    rw [Registry.names] at names
    rwa [names]
  constructor
  · intro found
    obtain ⟨declaration, member, here⟩ :=
      exists_left_of_mem matched (Registry.mem_of_schema? found)
    have named := (Declaration.describes_of_resolve here).name
    rw [Registry.name_of_schema? found] at named
    exact ⟨declaration, member, named.symm, here⟩
  · rintro ⟨declaration, member, rfl, here⟩
    obtain ⟨_, among, resolvedHere⟩ := exists_right_of_mem matched member
    cases here.symm.trans resolvedHere
    have named := (Declaration.describes_of_resolve here).name
    have present : (registry.schema? declaration.name).isSome = true := by
      rw [Registry.schema?, List.find?_isSome]
      exact ⟨schema, among, by simp [named]⟩
    obtain ⟨found, there⟩ := Option.isSome_iff_exists.mp present
    have sameName : found.name = schema.name := by
      rw [Registry.name_of_schema? there, named]
    rw [there, List.inj_on_of_nodup_map unique (Registry.mem_of_schema? there) among sameName]

theorem Registry.schema?_again (permutation : declarations.Perm reordered)
    (made : Registry.ofDeclarations declarations = .ok registry)
    (madeAgain : Registry.ofDeclarations reordered = .ok other) {name : String}
    (found : registry.schema? name = some schema) : other.schema? name = some schema := by
  obtain ⟨declaration, member, named, here⟩ := (Registry.schema?_eq_some made).mp found
  have memberAgain := permutation.mem_iff.mp member
  obtain ⟨-, matched⟩ := Registry.ofDeclarations_resolved madeAgain
  obtain ⟨_, -, there⟩ := exists_right_of_mem matched memberAgain
  cases Declaration.resolve_unique here there
  exact (Registry.schema?_eq_some madeAgain).mpr ⟨declaration, memberAgain, named, there⟩

theorem Registry.schema?_of_perm (permutation : declarations.Perm reordered)
    (made : Registry.ofDeclarations declarations = .ok registry)
    (madeAgain : Registry.ofDeclarations reordered = .ok other) (name : String) :
    registry.schema? name = other.schema? name :=
  Option.ext fun _ => ⟨Registry.schema?_again permutation made madeAgain,
    Registry.schema?_again permutation.symm madeAgain made⟩

end

/-- The order of declarations does not matter. They are resolved exactly when they are consistent,
in one order as in the other, and then both registries have the same schemas under the same names:
those that the declarations describe, each under the name of its declaration. -/
theorem resolution_ignores_order {declarations reordered : List Declaration}
    (permutation : declarations.Perm reordered) :
    ((∃ registry, Registry.ofDeclarations declarations = .ok registry) ↔
      Declaration.Consistent declarations) ∧
    (((∃ error, Registry.ofDeclarations declarations = .error error) ∧
        ∃ error, Registry.ofDeclarations reordered = .error error) ∨
      ∃ registry other, Registry.ofDeclarations declarations = .ok registry ∧
        Registry.ofDeclarations reordered = .ok other ∧
        registry.names.Perm other.names ∧
        ∀ name, registry.schema? name = other.schema? name) ∧
    ∀ registry, Registry.ofDeclarations declarations = .ok registry →
      registry.names = declarations.map Declaration.name ∧
      (∀ name, name ∉ registry.names → registry.schema? name = none) ∧
      ∀ declaration ∈ declarations, ∃ schema,
        registry.schema? declaration.name = some schema ∧ declaration.Describes schema := by
  refine ⟨ofDeclarations_ok_iff, ?_, ?_⟩
  · by_cases consistent : Declaration.Consistent declarations
    · obtain ⟨registry, made⟩ := ofDeclarations_ok_iff.mpr consistent
      obtain ⟨other, madeAgain⟩ := ofDeclarations_ok_iff.mpr (consistent.perm permutation)
      have names : registry.names.Perm other.names := by
        rw [Registry.names_ofDeclarations made, Registry.names_ofDeclarations madeAgain]
        exact permutation.map Declaration.name
      exact .inr ⟨registry, other, made, madeAgain, names,
        Registry.schema?_of_perm permutation made madeAgain⟩
    · have inconsistent : ¬ Declaration.Consistent reordered :=
        fun contrary => consistent (contrary.perm permutation.symm)
      exact .inl ⟨ofDeclarations_error_iff.mpr consistent,
        ofDeclarations_error_iff.mpr inconsistent⟩
  · intro registry made
    refine ⟨Registry.names_ofDeclarations made, ?_, ?_⟩
    · intro name absent
      rw [Registry.schema?, List.find?_eq_none]
      intro schema member
      have present : schema.name ∈ registry.names := List.mem_map_of_mem member
      simpa using fun same : schema.name = name => absent (same ▸ present)
    · intro declaration member
      have consistent := ofDeclarations_ok_iff.mp ⟨registry, made⟩
      obtain ⟨-, each⟩ := Declaration.consistent_iff_refersTo.mp consistent
      obtain ⟨schema, here⟩ := Declaration.resolve_ok_iff.mpr (each declaration member)
      exact ⟨schema, (Registry.schema?_eq_some made).mpr ⟨declaration, member, rfl, here⟩,
        Declaration.describes_of_resolve here⟩

/-- Elements that refer to each other and to a category which only the last one has. The first one
gives a global attribute a type of its own, twice. -/
def crossReferences : List Declaration := [
  { name := "list"
    attributes := [⟨"title", .mk "Uri" [], .origin⟩,
      ⟨"title", .mk "SpacedList" [.mk "isize" []], .origin⟩]
    categories := ["FlowContent"], required := [], constraint := some ("item", .origin)
    span := .origin, source := "" },
  { name := "item", attributes := [], categories := [], required := [("list", .origin)]
    constraint := some ("Later", .origin), span := .origin, source := "" },
  { name := "last", attributes := [], categories := ["Later"], required := []
    constraint := some ("TextNode", .origin), span := .origin, source := "" }]

theorem crossReferences_in_either_order :
    ∃ registry other schema, Registry.ofDeclarations crossReferences = .ok registry ∧
      Registry.ofDeclarations crossReferences.reverse = .ok other ∧
      (∀ name, registry.schema? name = other.schema? name) ∧
      other.schema? "list" = some schema ∧
      schema.attributes.get? "title" = some (.spaced .list (.integer false)) ∧
      schema.attributes.get? "lang" = some (.checked .languageTag) := by
  have resolves : yields (fun registry => (registry.schema? "list").any fun schema =>
      schema.attributes.get? "title" == some (.spaced .list (.integer false)) &&
        schema.attributes.get? "lang" == some (.checked .languageTag))
      (Registry.ofDeclarations crossReferences) = true := by
    decide +kernel
  obtain ⟨registry, made, decided⟩ := exists_of_yields resolves
  obtain ⟨-, failed | succeeded, described⟩ :=
    resolution_ignores_order (List.reverse_perm crossReferences).symm
  · obtain ⟨⟨error, failedHere⟩, -⟩ := failed
    rw [made] at failedHere
    cases failedHere
  · obtain ⟨again, other, madeHere, madeThere, -, same⟩ := succeeded
    rw [made] at madeHere
    cases madeHere
    obtain ⟨-, -, each⟩ := described registry made
    obtain ⟨schema, found, -⟩ := each _ List.mem_cons_self
    have found : registry.schema? "list" = some schema := found
    rw [found] at decided
    simp only [Option.any_some, Bool.and_eq_true, beq_iff_eq] at decided
    exact ⟨registry, other, schema, made, madeThere, same, (same "list").symm.trans found, decided⟩

end TypedMarkup
