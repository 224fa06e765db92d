import TypedMarkup.Proofs.Schema.Derivation
import TypedMarkup.Proofs.Token.Losslessness

/-!
Contract: the texts of types are read back.

Owns: `IsIdentifier`, the texts that are one word, `TypeSpec.Named`, the types that can be written,
`Lays`, the texts whose tokens follow a rule wherever they stand, and the theorem that a declaration
with the texts of types has these types, at any depth. Every type of a declaration that was read is
such a type.

The brackets that close nested types stand side by side. Each of them is a word of its own, and a
name ends where a bracket, a comma or a colon begins, so the words of a text are those of its parts.
-/

namespace TypedMarkup

open Lexis Declaration

variable {character : Char} {name : String}

/-! ## Words -/

/-- Texts that are one word of the language. -/
def IsIdentifier (text : String) : Prop :=
  ∃ first rest, text = String.ofList (first :: rest) ∧ beginsIdentifier first = true ∧
    ∀ character ∈ rest, continuesIdentifier character = true

theorem isIdentifier_of_pieces (pieces : List Lexis.Piece) {start : Position} {name : String}
    {span : Span} (member : .identifier name span ∈ flattenAll (tokensAll start pieces)) :
    IsIdentifier name := by
  induction pieces using pieces_induction generalizing start with
  | nil => simp [tokensAll] at member
  | gap gap rest ih =>
    rw [flatten_gap] at member
    exact ih member
  | word word rest ih =>
    rw [flatten_word] at member
    rcases List.mem_cons.mp member with same | later
    · cases word with
      | identifier first tail begins continues =>
        cases same
        exact ⟨first, tail, rfl, begins, continues⟩
      | _ => cases same
    · exact ih later
  | group delimiter inner rest inside ih =>
    rw [flatten_group] at member
    simp only [List.mem_cons, List.mem_append, reduceCtorEq, false_or] at member
    exact member.elim inside ih

theorem isIdentifier_of_tokenize {source : String} {tokens : Tokens} {span : Span}
    (read : tokenize source = .ok tokens) (member : .identifier name span ∈ tokens.flatten.body) :
    IsIdentifier name := by
  obtain ⟨layout, -, -, rfl⟩ := tokenize_eq_ok.mp read
  exact isIdentifier_of_pieces layout.pieces member

theorem ne_dash_of_continues (continues : continuesIdentifier character = true) :
    (character == '-') = false := by
  rw [beq_eq_false_iff_ne]
  rintro rfl
  cases continues

theorem continues_of_begins (begins : beginsIdentifier character = true) :
    continuesIdentifier character = true := by
  rw [continuesIdentifier, begins, Bool.true_or]

theorem IsIdentifier.continues {text : String} (isName : IsIdentifier text) :
    ∀ character ∈ text.toList, continuesIdentifier character = true := by
  obtain ⟨first, rest, rfl, begins, continues⟩ := isName
  rw [String.toList_ofList]
  exact List.forall_mem_cons.mpr ⟨continues_of_begins begins, continues⟩

theorem IsIdentifier.keyOf_eq {text : String} (isName : IsIdentifier text) :
    keyOf text = text := by
  have same : (text.toList.map fun character => if character == '-' then '_' else character) =
      text.toList.map id := by
    refine List.map_congr_left fun character member => ?_
    rw [ne_dash_of_continues (isName.continues character member)]
    rfl
  rw [keyOf, same, List.map_id, String.ofList_toList]

section

variable {inClass : Char → Bool}

theorem stops_nil : Stops inClass [] := by rintro _ _ ⟨⟩

theorem stops_cons (outside : inClass character = false) (rest : List Char) :
    Stops inClass (character :: rest) := by
  rintro _ _ ⟨⟩
  exact outside

theorem Lexis.Stops.append {text after : List Char} (stops : Stops inClass text)
    (behind : Stops inClass after) : Stops inClass (text ++ after) := by
  cases text with
  | nil => exact behind
  | cons character rest => exact stops_cons (stops character rest rfl) _

end

/-- A word that is no keyword. -/
def IsPlain (text : String) : Prop := IsIdentifier text ∧ text ≠ "in" ∧ text ≠ "with"

theorem isPlain_letter {first : Char} (begins : beginsIdentifier first = true) :
    IsPlain (String.ofList [first]) := by
  refine ⟨⟨first, [], rfl, begins, List.forall_mem_nil _⟩, ?_, ?_⟩ <;> intro same
  · cases String.ofList_injective (same : _ = String.ofList ['i', 'n'])
  · cases String.ofList_injective (same : _ = String.ofList ['w', 'i', 't', 'h'])

/-! ## Laying out a text -/

/-- A text has words that are the longest wherever the text behind it does not go on with a name,
and with the keywords set apart their tokens follow a rule. -/
def Lays (rule : List Token → Prop) (text : List Char) : Prop :=
  ∃ pieces, writtenAll pieces = text ∧
    (∀ after, Stops continuesIdentifier after → LongestAll after pieces) ∧
    ∀ start, rule ((flattenAll (tokensAll start pieces)).map Token.setKeyword)

namespace Lays

variable {rule inside : List Token → Prop} {text more : List Char}

theorem imp {other : List Token → Prop} (lays : Lays rule text)
    (follows : ∀ tokens, rule tokens → other tokens) : Lays other text := by
  obtain ⟨pieces, written, longest, ruled⟩ := lays
  exact ⟨pieces, written, longest, fun start => follows _ (ruled start)⟩

theorem nil : Lays (· = []) [] :=
  ⟨[], writtenAll_nil, fun _ _ => trivial, fun _ => rfl⟩

theorem blank (lays : Lays rule text) : Lays rule (' ' :: text) := by
  obtain ⟨pieces, rfl, longest, ruled⟩ := lays
  refine ⟨.gap (.blank ' ' rfl) :: pieces, by rw [writtenAll_cons, written_gap]; rfl,
    fun after stops => ⟨trivial, longest after stops⟩, fun start => ?_⟩
  rw [flatten_gap]
  exact ruled _

theorem mark (legal : isMark character = true) (lays : Lays rule text) :
    Lays (fun tokens => ∃ span rest, tokens = .mark character span :: rest ∧ rule rest)
      (character :: text) := by
  obtain ⟨pieces, rfl, longest, ruled⟩ := lays
  refine ⟨.word (.mark character legal) :: pieces, by rw [writtenAll_cons, written_word]; rfl,
    fun after stops => ⟨longest_mark _, longest after stops⟩, fun start => ?_⟩
  rw [flatten_word]
  exact ⟨_, _, rfl, ruled _⟩

theorem word (isPlain : IsPlain name) (lays : Lays rule text)
    (ends : Stops continuesIdentifier text) :
    Lays (fun tokens => ∃ span rest, tokens = .identifier name span :: rest ∧ rule rest)
      (name.toList ++ text) := by
  obtain ⟨⟨first, tail, rfl, begins, continues⟩, plain⟩ := isPlain
  obtain ⟨pieces, rfl, longest, ruled⟩ := lays
  refine ⟨.word (.identifier first tail begins continues) :: pieces,
    by rw [writtenAll_cons, written_word, String.toList_ofList]; rfl,
    fun after stops => ⟨longest_identifier (ends.append stops), longest after stops⟩,
    fun start => ?_⟩
  rw [flatten_word, List.map_cons]
  exact ⟨_, _, congrArg (· :: _)
    (Token.setKeyword_identifier (Keyword.ofText?_eq_none.mpr plain) _), ruled _⟩

theorem append (begins : Lays inside more) (lays : Lays rule text)
    (ends : Stops continuesIdentifier text) :
    Lays (fun tokens => ∃ first rest, tokens = first ++ rest ∧ inside first ∧ rule rest)
      (more ++ text) := by
  obtain ⟨first, rfl, firstLongest, firstRuled⟩ := begins
  obtain ⟨pieces, rfl, longest, ruled⟩ := lays
  refine ⟨first ++ pieces, writtenAll_append _ _, fun after stops =>
    longestAll_append.mpr ⟨firstLongest _ (ends.append stops), longest after stops⟩,
    fun start => ?_⟩
  rw [tokensAll_append, flattenAll_append, List.map_append]
  exact ⟨_, _, rfl, firstRuled _, ruled _⟩

theorem group (delimiter : Delimiter) (lays : Lays rule text) :
    Lays (fun tokens => ∃ opened closed inner,
      tokens = .opening delimiter opened :: (inner ++ [.closing delimiter closed]) ∧ rule inner)
      (delimiter.opening :: (text ++ [delimiter.closing])) := by
  obtain ⟨pieces, rfl, longest, ruled⟩ := lays
  refine ⟨[.group delimiter pieces],
    by rw [writtenAll_cons, written_group, writtenAll_nil, List.append_nil],
    fun after _ => ⟨longest _ (stops_cons (by cases delimiter <;> rfl) _), trivial⟩,
    fun start => ?_⟩
  rw [flatten_group, List.map_cons, List.map_append, List.map_cons]
  exact ⟨_, _, _, rfl, ruled _⟩

/-- A text by itself is tokenized as it is laid out. -/
theorem exists_tokens (lays : Lays rule text) :
    ∃ tokens, tokenize (String.ofList text) = .ok tokens ∧
      rule tokens.flatten.setKeywords.body := by
  obtain ⟨pieces, rfl, longest, ruled⟩ := lays
  exact ⟨_, tokenize_pieces (longest [] stops_nil), ruled .origin⟩

end Lays

/-! ## Types -/

/-- All names in a type are words and no keywords. -/
inductive TypeSpec.Named : TypeSpec → Prop where
  | mk {name : String} {arguments : List TypeSpec} (isPlain : IsPlain name)
      (areNamed : ∀ argument ∈ arguments, argument.Named) : Named (.mk name arguments)

theorem TypeSpec.Named.letter {first : Char} (begins : beginsIdentifier first = true) :
    Named (.mk (String.ofList [first]) []) :=
  .mk (isPlain_letter begins) (List.forall_mem_nil _)

theorem stops_textRest (types : List TypeSpec) :
    Stops continuesIdentifier (TypeSpec.textRest types).toList := by
  cases types with
  | nil => exact stops_nil
  | cons type others =>
    rw [TypeSpec.textRest, String.toList_append, String.toList_append]
    exact stops_cons rfl _

theorem lays_textRest {types : List TypeSpec}
    (each : ∀ type ∈ types, Lays (IsType · type) type.text.toList) :
    Lays (AreTypes · types) (TypeSpec.textRest types).toList := by
  induction types with
  | nil => exact Lays.nil.imp fun _ none => none ▸ .none
  | cons type others ih =>
    obtain ⟨here, further⟩ := List.forall_mem_cons.mp each
    rw [TypeSpec.textRest, String.toList_append, String.toList_append, List.append_assoc]
    refine (Lays.mark rfl (here.append (ih further) (stops_textRest others)).blank).imp ?_
    rintro _ ⟨comma, _, rfl, first, more, rfl, begins, areTypes⟩
    exact .more begins areTypes

theorem lays_text {type : TypeSpec} (named : type.Named) :
    Lays (IsType · type) type.text.toList := by
  induction named with
  | @mk name arguments isPlain areNamed each =>
    cases arguments with
    | nil =>
      have alone := Lays.nil.word isPlain stops_nil
      rw [List.append_nil] at alone
      refine alone.imp ?_
      rintro _ ⟨span, _, rfl, rfl⟩
      exact .plain (.last name span)
    | cons argument others =>
      obtain ⟨here, further⟩ := List.forall_mem_cons.mp each
      have closing : Lays _ ['>'] := Lays.nil.mark rfl
      have inner := here.append ((lays_textRest further).append closing (stops_cons rfl _))
        ((stops_textRest others).append (stops_cons rfl _))
      have opening : Lays _ ('<' :: _) := inner.mark rfl
      have text : (TypeSpec.mk name (argument :: others)).text.toList = name.toList ++ '<' ::
          (argument.text.toList ++ ((TypeSpec.textRest others).toList ++ ['>'])) := by
        simp [TypeSpec.text]
      rw [text]
      refine (opening.word isPlain (stops_cons rfl _)).imp ?_
      rintro _ ⟨span, _, rfl, less, _, rfl, first, _, rfl, begins, more, _, rfl, areTypes, greater,
        _, rfl, rfl⟩
      exact .applied (.last name span) begins areTypes

/-! ## Declarations -/

/-- An element with attributes, each with the text of its type. -/
def declarationText (element : String) (attributes : List (String × TypeSpec)) : String :=
  element ++ " \x7b" ++
    ", ".intercalate (attributes.map fun own => own.1 ++ ": " ++ own.2.text) ++ "\x7d"

theorem exists_covers (token : Token) (rest : List Token) :
    ∃ span : Span, span.Covers (token :: rest) :=
  ⟨⟨token.span.start, ((token :: rest).getLast (List.cons_ne_nil _ _)).span.stop⟩,
    ⟨token, rfl, rfl⟩, _, List.getLast?_eq_some_getLast _, rfl⟩

theorem lays_attribute {type : TypeSpec} (isPlain : IsPlain name) (named : type.Named) :
    Lays (fun tokens => ∃ found, IsAttribute tokens found ∧ (found.name, found.type) = (name, type))
      (name ++ ": " ++ type.text).toList := by
  have colon : Lays _ (':' :: _) := (lays_text named).blank.mark rfl
  rw [String.toList_append, String.toList_append, List.append_assoc]
  refine (colon.word isPlain (stops_cons rfl _)).imp ?_
  rintro _ ⟨word, _, rfl, colon, rest, rfl, isType⟩
  obtain ⟨span, covers⟩ := exists_covers (.identifier name word) (.mark ':' colon :: rest)
  exact ⟨⟨name, type, span⟩, ⟨[_], [_], colon, rest, rfl, .last _ _, isType,
    isPlain.1.keyOf_eq.symm, covers⟩, rfl⟩

theorem lays_attributes {attributes : List (String × TypeSpec)}
    (each : ∀ own ∈ attributes, IsPlain own.1 ∧ own.2.Named) :
    Lays (fun tokens => ∃ found, Listed ',' IsAttribute tokens found ∧
        found.map (fun own => (own.name, own.type)) = attributes)
      (", ".intercalate (attributes.map fun own => own.1 ++ ": " ++ own.2.text)).toList := by
  induction attributes with
  | nil => exact Lays.nil.imp fun _ none => ⟨[], none ▸ .none, rfl⟩
  | cons own others ih =>
    obtain ⟨⟨isPlain, named⟩, further⟩ := List.forall_mem_cons.mp each
    have here := lays_attribute isPlain named
    cases others with
    | nil =>
      rw [List.map_cons, List.map_nil, String.intercalate_singleton]
      refine here.imp ?_
      rintro _ ⟨found, isOwn, same⟩
      exact ⟨[found], .last isOwn, congrArg (fun it => [it]) same⟩
    | cons second more =>
      have comma : Lays _ (',' :: _) := (ih further).blank.mark rfl
      rw [List.map_cons, List.map_cons, String.intercalate_cons_cons, String.toList_append,
        String.toList_append, List.append_assoc]
      refine (here.append comma (stops_cons rfl _)).imp ?_
      rintro _ ⟨first, _, rfl, ⟨found, isOwn, same⟩, comma, rest, rfl, listed, are, names⟩
      exact ⟨found :: listed, .marked isOwn are, by rw [List.map_cons, same, names]⟩

/-- The text of a declaration is read as one declaration, with the attributes and types it is the
text of. -/
def ReadsBack (element : String) (attributes : List (String × TypeSpec)) : Prop :=
  ∃ found, parseAll (declarationText element attributes) = .ok [found] ∧ found.name = element ∧
    found.attributes.map (fun own => (own.name, own.type)) = attributes

theorem readsBack {element : String} {attributes : List (String × TypeSpec)}
    (isPlain : IsPlain element) (each : ∀ own ∈ attributes, IsPlain own.1 ∧ own.2.Named) :
    ReadsBack element attributes := by
  have laid := ((lays_attributes each).group .brace).blank.word isPlain (stops_cons rfl _)
  obtain ⟨tokens, tokenized, name, _, body, opened, closed, inner, rfl, found, listed, same⟩ :=
    laid.exists_tokens
  obtain ⟨span, covers⟩ := exists_covers (.identifier element name)
    (.opening .brace opened :: (inner ++ [.closing .brace closed]))
  rw [← body] at covers
  have read : tokenize (declarationText element attributes) = .ok tokens := by
    rw [← tokenized]
    refine congrArg tokenize (String.toList_inj.mp ?_)
    simp [declarationText, Delimiter.opening, Delimiter.closing]
  let declaration : Declaration :=
    ⟨element, found, [], [], none, span, declarationText element attributes⟩
  refine ⟨declaration, parseAll_eq_ok.mpr ⟨tokens, read, .last ?_⟩, rfl, same⟩
  exact ⟨name, _, [], [], by rw [body, List.append_nil, List.append_nil], .inr (.mk listed),
    .inl ⟨rfl, rfl⟩, .inl ⟨rfl, rfl⟩, covers, rfl⟩

/-! ## Types that were read -/

theorem Declaration.Listed.exists_of_mem {α : Type} {mark : Char} {item : List Token → α → Prop}
    {tokens : List Token} {values : List α} (listed : Listed mark item tokens values) {value : α}
    (member : value ∈ values) : ∃ own, item own value ∧ own ⊆ tokens := by
  induction listed with
  | none => cases member
  | last found =>
    cases List.mem_singleton.mp member
    exact ⟨_, found, List.Subset.refl _⟩
  | marked found further ih =>
    rcases List.mem_cons.mp member with rfl | later
    · exact ⟨_, found, List.subset_append_left _ _⟩
    · obtain ⟨own, isOwn, inside⟩ := ih later
      exact ⟨own, isOwn, List.Subset.trans inside (by simp)⟩

/-- The words of an attribute that was read are no keywords. -/
theorem exists_attribute {source : String} {declarations : List Declaration} {found : Declaration}
    {own : AttributeDeclaration} (read : parseAll source = .ok declarations)
    (member : found ∈ declarations) (isOwn : own ∈ found.attributes) :
    ∃ tokens, IsAttribute tokens own ∧
      ∀ name span, .identifier name span ∈ tokens → IsPlain name := by
  obtain ⟨tokens, tokenized, derived⟩ := parseAll_eq_ok.mp read
  obtain ⟨inner, ⟨_, attributes, _, _, rfl, isAttributes, -⟩, inBody⟩ :=
    derived.exists_of_mem member
  rcases isAttributes with ⟨-, empty⟩ | ⟨⟨listed⟩⟩
  · rw [empty] at isOwn
    cases isOwn
  · obtain ⟨_, isAttribute, inList⟩ := listed.exists_of_mem isOwn
    refine ⟨_, isAttribute, fun name span among => ?_⟩
    have inText : .identifier name span ∈ tokens.flatten.setKeywords.body :=
      inBody (by simp [inList among])
    obtain ⟨token, inText, set⟩ := List.mem_map.mp inText
    obtain ⟨rfl, plain⟩ := Token.setKeyword_eq_identifier.mp set
    exact ⟨isIdentifier_of_tokenize tokenized inText, Keyword.ofText?_eq_none.mp plain⟩

theorem Declaration.IsPath.mem {tokens : List Token} (named : IsPath tokens name) :
    ∃ span, .identifier name span ∈ tokens := by
  induction named with
  | last name span => exact ⟨span, List.mem_singleton_self _⟩
  | further _ _ ih =>
    obtain ⟨span, inside⟩ := ih
    exact ⟨span, by simp [inside]⟩

mutual

theorem Declaration.IsType.named {tokens : List Token} {type : TypeSpec}
    (derived : IsType tokens type)
    (plain : ∀ name span, .identifier name span ∈ tokens → IsPlain name) : type.Named := by
  match derived with
  | .plain named =>
    obtain ⟨span, inside⟩ := named.mem
    exact .mk (plain _ span inside) (List.forall_mem_nil _)
  | .applied named begins further =>
    obtain ⟨span, inside⟩ := named.mem
    refine .mk (plain _ span (by simp [inside])) (List.forall_mem_cons.mpr
      ⟨begins.named fun name span inside => plain name span (by simp [inside]),
        further.named fun name span inside => plain name span (by simp [inside])⟩)

theorem Declaration.AreTypes.named {tokens : List Token} {types : List TypeSpec}
    (derived : AreTypes tokens types)
    (plain : ∀ name span, .identifier name span ∈ tokens → IsPlain name) :
    ∀ type ∈ types, type.Named := by
  match derived with
  | .none => exact List.forall_mem_nil _
  | .more begins further =>
    exact List.forall_mem_cons.mpr
      ⟨begins.named fun name span inside => plain name span (by simp [inside]),
        further.named fun name span inside => plain name span (by simp [inside])⟩

end

/-- Types are read back from their texts. A declaration whose attributes have the texts of types is
read, with just these attributes and types, if all names are words and no keywords. The types of
every declaration that was read are such types. -/
theorem type_texts_are_read_back :
    (∀ element attributes, IsPlain element →
      (∀ own ∈ attributes, IsPlain own.1 ∧ own.2.Named) → ReadsBack element attributes) ∧
    ∀ source declarations, parseAll source = .ok declarations →
      ∀ found ∈ declarations, ∀ own ∈ found.attributes, own.type.Named ∧
        ∀ element key, IsPlain element → IsPlain key → ReadsBack element [(key, own.type)] := by
  refine ⟨fun element attributes => readsBack, ?_⟩
  intro source declarations read found member own isOwn
  obtain ⟨_, ⟨name, _, colon, type, rfl, -, isType, -⟩, plain⟩ := exists_attribute read member isOwn
  have named : own.type.Named :=
    isType.named fun name span inside => plain name span (by simp [inside])
  exact ⟨named, fun element key isPlain isKey =>
    readsBack isPlain (List.forall_mem_singleton.mpr ⟨isKey, named⟩)⟩

/-- A type whose brackets are closed side by side. -/
def nestedType : TypeSpec := .mk "A" [.mk "B" [.mk "C" [], .mk "A" []]]

theorem nestedType_is_read_back :
    declarationText "p" [("x", nestedType)] = "p \x7bx: A<B<C, A>>\x7d" ∧
      ReadsBack "p" [("x", nestedType)] := by
  have inner : TypeSpec.Named (.mk "B" [.mk "C" [], .mk "A" []]) :=
    .mk (isPlain_letter rfl) (List.forall_mem_cons.mpr
      ⟨.letter rfl, List.forall_mem_singleton.mpr (.letter rfl)⟩)
  have named : nestedType.Named :=
    .mk (isPlain_letter rfl) (List.forall_mem_singleton.mpr inner)
  exact ⟨rfl, type_texts_are_read_back.1 "p" _ (isPlain_letter rfl)
    (List.forall_mem_singleton.mpr ⟨isPlain_letter rfl, named⟩)⟩

end TypedMarkup
