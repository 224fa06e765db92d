import TypedMarkup.Proofs.Success
import TypedMarkup.Proofs.Token.Cursor
import TypedMarkup.Proofs.Token.Faults
import TypedMarkup.Schema.Declaration

/-!
Contract: the grammar of declarations, and that reading accepts exactly it.

Owns: which tokens derive which part of a declaration, and the theorem on whole texts.

  declarations ::= [declaration (";" declaration)* [";"]] end
  declaration  ::= word ["{" attributes "}"] ["in" names] ["with" (names [word] | word)]
  attributes   ::= [attribute ("," attribute)* [","]]
  attribute    ::= word ("-" word)* ":" type
  type         ::= word ("::" word)* ["<" type ("," type)* ">"]
  names        ::= "[" [word ("," word)* [","]] "]"

A dash directly follows the word before it, and so do two colons each other. The words `in` and
`with` are keywords and no words of the grammar. Behind `with`, an empty list needs a word behind
it.

A type is read as far as it goes, so what stands behind it must not go on with it. Types that are
read are derived by induction on the fuel, and derived types are read with a step for each token.
-/

namespace TypedMarkup.Declaration

/-! ## The grammar -/

inductive IsName : List Token → List String → Prop where
  | last (part : String) (span : Span) : IsName [.identifier part span] [part]
  | further {part : String} {span dash : Span} {tokens : List Token} {parts : List String}
      (follows : span.stop.offset = dash.start.offset) (behind : IsName tokens parts) :
      IsName (.identifier part span :: .mark '-' dash :: tokens) (part :: parts)

/-- A type path, with the last of its segments. -/
inductive IsPath : List Token → String → Prop where
  | last (name : String) (span : Span) : IsPath [.identifier name span] name
  | further {segment name : String} {span first second : Span} {tokens : List Token}
      (adjacent : first.stop.offset = second.start.offset) (behind : IsPath tokens name) :
      IsPath (.identifier segment span :: .mark ':' first :: .mark ':' second :: tokens) name

mutual

inductive IsType : List Token → TypeSpec → Prop where
  | plain {path : List Token} {name : String} (named : IsPath path name) :
      IsType path (.mk name [])
  | applied {path first more : List Token} {name : String} {argument : TypeSpec}
      {others : List TypeSpec} {less greater : Span} (named : IsPath path name)
      (begins : IsType first argument) (further : AreTypes more others) :
      IsType (path ++ .mark '<' less :: (first ++ (more ++ [.mark '>' greater])))
        (.mk name (argument :: others))

/-- Further types, each behind a comma. -/
inductive AreTypes : List Token → List TypeSpec → Prop where
  | none : AreTypes [] []
  | more {first more : List Token} {type : TypeSpec} {others : List TypeSpec} {comma : Span}
      (begins : IsType first type) (further : AreTypes more others) :
      AreTypes (.mark ',' comma :: (first ++ more)) (type :: others)

end

/-- Any number of items with a mark between them, and perhaps one behind the last. -/
inductive Listed {α : Type} (mark : Char) (item : List Token → α → Prop) :
    List Token → List α → Prop where
  | none : Listed mark item [] []
  | last {tokens : List Token} {value : α} (own : item tokens value) :
      Listed mark item tokens [value]
  | marked {tokens rest : List Token} {value : α} {values : List α} {span : Span}
      (own : item tokens value) (further : Listed mark item rest values) :
      Listed mark item (tokens ++ .mark mark span :: rest) (value :: values)

inductive Bracketed {α : Type} (delimiter : Delimiter) (item : List Token → α → Prop) :
    List Token → List α → Prop where
  | mk {inner : List Token} {values : List α} {opened closed : Span}
      (listed : Listed ',' item inner values) :
      Bracketed delimiter item (.opening delimiter opened :: (inner ++ [.closing delimiter closed]))
        values

def IsWord (tokens : List Token) (word : String × Span) : Prop :=
  tokens = [.identifier word.1 word.2]

def IsAttribute (tokens : List Token) (found : AttributeDeclaration) : Prop :=
  ∃ name parts colon type, tokens = name ++ .mark ':' colon :: type ∧ IsName name parts ∧
    IsType type found.type ∧ found.name = keyOf ("-".intercalate parts) ∧ found.span.Covers tokens

/-- A part that may be left out. -/
def Optional {α : Type} (absent : α) (rule : List Token → α → Prop) (tokens : List Token)
    (value : α) : Prop :=
  (tokens = [] ∧ value = absent) ∨ rule tokens value

inductive AreCategories : List Token → List String → Prop where
  | mk {tokens : List Token} {names : List (String × Span)} {word : Span}
      (listed : Bracketed .bracket IsWord tokens names) :
      AreCategories (.keyword .inWord word :: tokens) (names.map Prod.fst)

/-- The required children and the constraint of a declaration. -/
inductive IsContent : List Token → List (String × Span) × Option (String × Span) → Prop where
  | required {tokens : List Token} {names : List (String × Span)} {word : Span}
      (listed : Optional [] (Bracketed .bracket IsWord) tokens names) (notEmpty : names ≠ []) :
      IsContent (.keyword .withWord word :: tokens) (names, none)
  | constrained {tokens : List Token} {names : List (String × Span)} {name : String}
      {word span : Span} (listed : Optional [] (Bracketed .bracket IsWord) tokens names) :
      IsContent (.keyword .withWord word :: (tokens ++ [.identifier name span]))
        (names, some (name, span))

section

variable {tokens : List Token}

theorem AreCategories.exists_keyword {found : List String} (derived : AreCategories tokens found) :
    ∃ word more, tokens = .keyword .inWord word :: more := by
  cases derived
  exact ⟨_, _, rfl⟩

theorem IsContent.exists_keyword {found : List (String × Span) × Option (String × Span)}
    (derived : IsContent tokens found) : ∃ word more, tokens = .keyword .withWord word :: more := by
  cases derived <;> exact ⟨_, _, rfl⟩

def IsDeclaration (source : String) (tokens : List Token) (found : Declaration) : Prop :=
  ∃ span attributes categories content,
    tokens = .identifier found.name span :: (attributes ++ (categories ++ content)) ∧
      Optional [] (Bracketed .brace IsAttribute) attributes found.attributes ∧
      Optional [] AreCategories categories found.categories ∧
      Optional ([], none) IsContent content (found.required, found.constraint) ∧
      found.span.Covers tokens ∧ found.source = source

theorem IsName.exists_word {parts : List String} (named : IsName tokens parts) :
    ∃ first span more others,
      tokens = .identifier first span :: more ∧ parts = first :: others := by
  cases named with
  | last | further => exact ⟨_, _, _, _, rfl, rfl⟩

theorem IsPath.exists_word {name : String} (named : IsPath tokens name) :
    ∃ first span more, tokens = .identifier first span :: more := by
  cases named with
  | last | further => exact ⟨_, _, _, rfl⟩

theorem IsType.exists_word {type : TypeSpec} (derived : IsType tokens type) :
    ∃ first span more, tokens = .identifier first span :: more := by
  cases derived with
  | plain named => exact named.exists_word
  | applied named =>
    obtain ⟨first, span, more, rfl⟩ := named.exists_word
    exact ⟨_, _, _, rfl⟩

end

end TypedMarkup.Declaration

namespace TypedMarkup

/-! ## Places -/

namespace Cursor

section

variable {cursor behind : Cursor} {token : Token} {tokens : List Token}

/-- The span over some tokens reaches from the next token to the one read last. -/
theorem Takes.covers_iff {span : Span} (takes : cursor.Takes (token :: tokens) behind) :
    span.Covers (token :: tokens) ↔ span = token.span.join behind.previous.span := by
  have last : (token :: tokens).getLast? = some behind.previous := by
    rw [takes.2, Cursor.previous, past, List.head?_append, List.head?_reverse]
    cases ends : (token :: tokens).getLast? with
    | none => cases List.getLast?_eq_none_iff.mp ends
    | some final => rfl
  constructor
  · rintro ⟨⟨first, isFirst, starts⟩, final, isFinal, stops⟩
    cases isFirst
    cases last.symm.trans isFinal
    rw [Span.join, ← starts, ← stops]
  · rintro rfl
    exact ⟨⟨token, rfl, rfl⟩, _, last, rfl⟩

end

end Cursor

namespace Declaration.Grammar

variable {cursor behind : Cursor} {tokens : List Token}

/-! ## Names and types -/

theorem nameTail_part {last dash span : Span} {part : String} {rest : List Token}
    (ahead : cursor.ahead = .mark '-' dash :: .identifier part span :: rest) :
    nameTail last cursor =
      if last.stop.offset = dash.start.offset then
        (part :: (nameTail span cursor.forward.forward).1,
          (nameTail span cursor.forward.forward).2)
      else ([], cursor) := by
  rw [nameTail]
  split
  · next same =>
    cases ahead.symm.trans same
    rfl
  · next different => exact absurd ahead (different _ _ _ _)

theorem nameTail_sound (last : Span) (cursor : Cursor) (first : String) :
    ∃ tokens, IsName (.identifier first last :: tokens) (first :: (nameTail last cursor).1) ∧
      cursor.Takes tokens (nameTail last cursor).2 := by
  fun_induction nameTail last cursor generalizing first with
  | case1 last cursor dash part span rest ahead follows tail ih =>
    obtain ⟨tokens, named, takes⟩ := ih part
    exact ⟨_, .further follows named, (Cursor.takes_two ahead).trans takes⟩
  | case2 last cursor | case3 last cursor => exact ⟨[], .last _ _, cursor.takes_nil⟩

theorem nameTail_complete {first : String} {last : Span} {parts : List String}
    (named : IsName (.identifier first last :: tokens) (first :: parts))
    (takes : cursor.Takes tokens behind) (stops : behind.atMark '-' 0 = false) :
    nameTail last cursor = (parts, behind) := by
  induction parts generalizing first last tokens cursor with
  | nil =>
    cases named with
    | last =>
      cases takes.eq_of_nil
      rw [nameTail]
      split
      · next ahead =>
        rw [(Cursor.takes_two ahead).atOwnMark] at stops
        cases stops
      · rfl
    | further follows further => cases further
  | cons part parts ih =>
    cases named with
    | further follows further =>
      obtain ⟨_, _, _, _, rfl, same⟩ := further.exists_word
      cases same
      rw [nameTail_part takes.1, if_pos follows, ih further takes.tail.tail]

theorem attributeName_sound {key : String} (read : attributeName cursor = .ok (key, behind)) :
    ∃ tokens parts, IsName tokens parts ∧ key = keyOf ("-".intercalate parts) ∧
      cursor.Takes tokens behind := by
  obtain ⟨⟨first, span, behindFirst⟩, firstRead, same⟩ := bind_eq_ok.mp read
  obtain ⟨tokens, named, takes⟩ := nameTail_sound span behindFirst first
  cases pure_eq_ok.mp same
  exact ⟨_, _, named, rfl, (Cursor.expectIdentifier_eq_ok.mp firstRead).trans takes⟩

theorem attributeName_complete {parts : List String} (named : IsName tokens parts)
    (takes : cursor.Takes tokens behind) (stops : behind.atMark '-' 0 = false) :
    attributeName cursor = .ok (keyOf ("-".intercalate parts), behind) := by
  obtain ⟨first, span, more, others, rfl, rfl⟩ := named.exists_word
  refine bind_eq_ok.mpr ⟨_, Cursor.expectIdentifier_eq_ok.mpr takes.first, ?_⟩
  dsimp only
  rw [nameTail_complete named takes.tail stops]
  rfl

theorem atColons_iff :
    (cursor.atMark ':' 0 && cursor.atMark ':' 1 && cursor.adjacent 1) = true ↔
      ∃ first second, first.stop.offset = second.start.offset ∧
        cursor.Takes [.mark ':' first, .mark ':' second] cursor.forward.forward := by
  have adjacent_iff {first second : Span}
      (takes : cursor.Takes [.mark ':' first, .mark ':' second] cursor.forward.forward) :
      cursor.adjacent 1 = true ↔ first.stop.offset = second.start.offset := by
    simp [Cursor.adjacent, Cursor.peek, takes.1, Token.span]
  rw [Bool.and_eq_true, Cursor.atMarks_iff]
  constructor
  · rintro ⟨⟨first, second, takes⟩, adjacent⟩
    exact ⟨first, second, (adjacent_iff takes).mp adjacent, takes⟩
  · rintro ⟨first, second, adjacent, takes⟩
    exact ⟨⟨first, second, takes⟩, (adjacent_iff takes).mpr adjacent⟩

theorem typePath_sound {name found : String} {fuel : Nat}
    (read : typePath name fuel cursor = .ok (found, behind)) (span : Span) :
    ∃ tokens, IsPath (.identifier name span :: tokens) found ∧ cursor.Takes tokens behind := by
  induction fuel generalizing name cursor span with
  | zero =>
    cases read
    exact ⟨[], .last _ _, behind.takes_nil⟩
  | succ fuel ih =>
    rw [typePath] at read
    split at read
    · next atColons =>
      obtain ⟨first, second, adjacent, colons⟩ := atColons_iff.mp atColons
      obtain ⟨⟨next, nextSpan, behindNext⟩, nextRead, more⟩ := bind_eq_ok.mp read
      obtain ⟨tokens, path, takes⟩ := ih more nextSpan
      have nextTakes := Cursor.expectIdentifier_eq_ok.mp nextRead
      exact ⟨_, .further adjacent path, colons.trans (nextTakes.trans takes)⟩
    · cases read
      exact ⟨[], .last _ _, behind.takes_nil⟩

theorem typePath_complete {name found : String} {span : Span} {fuel : Nat}
    (path : IsPath (.identifier name span :: tokens) found) (takes : cursor.Takes tokens behind)
    (enough : tokens.length ≤ fuel) (stops : behind.atMark ':' 0 = false) :
    typePath name fuel cursor = .ok (found, behind) := by
  induction fuel generalizing name span tokens cursor with
  | zero =>
    cases path with
    | last =>
      cases takes.eq_of_nil
      rfl
    | further => simp at enough
  | succ fuel ih =>
    cases path with
    | last =>
      cases takes.eq_of_nil
      rw [typePath, stops]
      rfl
    | @further _ _ _ first second more adjacent further =>
      obtain ⟨next, nextSpan, others, rfl⟩ := further.exists_word
      have colons := takes.first.trans takes.tail.first
      rw [typePath, if_pos (atColons_iff.mpr ⟨first, second, adjacent, colons⟩)]
      have nextTakes := takes.tail.tail
      refine bind_eq_ok.mpr ⟨_, Cursor.expectIdentifier_eq_ok.mpr nextTakes.first, ?_⟩
      exact ih further nextTakes.tail (by simp at enough; omega)

/-- Whatever is read is derived by the tokens that are taken. -/
def Sound {α : Type} (reader : Cursor → Except CompileError (α × Cursor))
    (rule : List Token → α → Prop) : Prop :=
  ∀ cursor value behind, reader cursor = .ok (value, behind) →
    ∃ tokens, rule tokens value ∧ cursor.Takes tokens behind

/-- Whatever is derived is read, if what stands behind it ends it. -/
def Complete {α : Type} (reader : Cursor → Except CompileError (α × Cursor))
    (rule : List Token → α → Prop) (ends : Cursor → Prop) : Prop :=
  ∀ cursor tokens value behind, rule tokens value → cursor.Takes tokens behind → ends behind →
    reader cursor = .ok (value, behind)

theorem types_sound (fuel : Nat) :
    Sound (typeSpec fuel) IsType ∧ Sound (moreTypes fuel) AreTypes := by
  induction fuel with
  | zero =>
    refine ⟨?_, ?_⟩
    · intro cursor type behind read
      cases read
    · intro cursor types behind read
      cases read
      exact ⟨[], .none, Cursor.takes_nil _⟩
  | succ fuel ih =>
    obtain ⟨typeSound, moreSound⟩ := ih
    refine ⟨?_, ?_⟩
    · intro cursor type behind read
      rw [typeSpec] at read
      obtain ⟨⟨first, span, behindFirst⟩, firstRead, behindFirstRead⟩ := bind_eq_ok.mp read
      obtain ⟨⟨name, behindPath⟩, pathRead, behindPathRead⟩ := bind_eq_ok.mp behindFirstRead
      obtain ⟨path, named, pathTakes⟩ := typePath_sound pathRead span
      have nameTakes := (Cursor.expectIdentifier_eq_ok.mp firstRead).trans pathTakes
      dsimp only at behindPathRead
      split at behindPathRead
      · next atLess =>
        obtain ⟨less, lessTakes⟩ := Cursor.takes_of_atMark atLess
        obtain ⟨⟨argument, behindArgument⟩, argumentRead, further⟩ :=
          bind_eq_ok.mp behindPathRead
        obtain ⟨⟨others, behindOthers⟩, othersRead, last⟩ := bind_eq_ok.mp further
        obtain ⟨⟨mark, place⟩, markRead, same⟩ := bind_eq_ok.mp last
        obtain ⟨begins, isType, typeTakes⟩ := typeSound _ _ _ argumentRead
        obtain ⟨more, areTypes, moreTakes⟩ := moreSound _ _ _ othersRead
        obtain ⟨greater, rfl, greaterTakes⟩ := Cursor.expectMark_eq_ok.mp markRead
        cases pure_eq_ok.mp same
        exact ⟨_, .applied named isType areTypes,
          nameTakes.trans (lessTakes.trans (typeTakes.trans (moreTakes.trans greaterTakes)))⟩
      · cases pure_eq_ok.mp behindPathRead
        exact ⟨_, .plain named, nameTakes⟩
    · intro cursor types behind read
      rw [moreTypes] at read
      split at read
      · next atComma =>
        obtain ⟨comma, commaTakes⟩ := Cursor.takes_of_atMark atComma
        obtain ⟨⟨type, behindType⟩, typeRead, further⟩ := bind_eq_ok.mp read
        obtain ⟨⟨others, place⟩, othersRead, same⟩ := bind_eq_ok.mp further
        obtain ⟨begins, isType, typeTakes⟩ := typeSound _ _ _ typeRead
        obtain ⟨more, areTypes, moreTakes⟩ := moreSound _ _ _ othersRead
        cases pure_eq_ok.mp same
        exact ⟨_, .more isType areTypes, commaTakes.trans (typeTakes.trans moreTakes)⟩
      · cases read
        exact ⟨[], .none, Cursor.takes_nil _⟩

/-- What stands behind a type does not go on with it. -/
def EndsType (cursor : Cursor) : Prop :=
  cursor.atMark ':' 0 = false ∧ cursor.atMark '<' 0 = false

theorem endsType_of_further {types : List TypeSpec} {more : List Token} {greater : Span}
    (further : AreTypes more types)
    (takes : cursor.Takes (more ++ [.mark '>' greater]) behind) : EndsType cursor := by
  cases further with
  | none | more => exact ⟨takes.atMark _, takes.atMark _⟩

theorem path_complete {name : String} (named : IsPath tokens name)
    (takes : cursor.Takes tokens behind) (stops : behind.atMark ':' 0 = false) :
    ∃ first span middle, cursor.expectIdentifier [Label.identifier] = .ok (first, span, middle) ∧
      typePath first middle.ahead.length middle = .ok (name, behind) := by
  obtain ⟨first, span, more, rfl⟩ := named.exists_word
  refine ⟨first, span, _, Cursor.expectIdentifier_eq_ok.mpr takes.first, ?_⟩
  apply typePath_complete named takes.tail _ stops
  rw [takes.tail.1, List.length_append]
  exact Nat.le_add_right _ _

theorem types_complete (fuel : Nat) :
    Complete (typeSpec fuel) (fun tokens type => IsType tokens type ∧ tokens.length ≤ fuel)
      EndsType ∧
    Complete (moreTypes fuel) (fun tokens types => AreTypes tokens types ∧ tokens.length ≤ fuel)
      (fun behind => behind.atMark '>' 0 = true) := by
  induction fuel with
  | zero =>
    refine ⟨?_, ?_⟩
    · rintro cursor tokens type behind ⟨isType, enough⟩ takes ends
      obtain ⟨first, span, more, rfl⟩ := isType.exists_word
      simp at enough
    · rintro cursor tokens types behind ⟨areTypes, enough⟩ takes ends
      cases List.length_eq_zero_iff.mp (Nat.le_zero.mp enough)
      cases areTypes
      cases takes.eq_of_nil
      rfl
  | succ fuel ih =>
    obtain ⟨typeComplete, moreComplete⟩ := ih
    refine ⟨?_, ?_⟩
    · rintro cursor tokens type behind ⟨isType, enough⟩ takes ends
      rw [typeSpec]
      cases isType with
      | plain named =>
        obtain ⟨_, _, _, firstRead, pathRead⟩ := path_complete named takes ends.1
        refine bind_eq_ok.mpr ⟨_, firstRead, bind_eq_ok.mpr ⟨_, pathRead, ?_⟩⟩
        dsimp only
        rw [ends.2]
        rfl
      | applied named isType areTypes =>
        obtain ⟨behindPath, pathTakes, lessTakes⟩ := takes.split
        obtain ⟨behindType, typeTakes, furtherTake⟩ := lessTakes.tail.split
        obtain ⟨behindMore, moreTakes, greaterTakes⟩ := furtherTake.split
        obtain ⟨_, _, _, firstRead, pathRead⟩ :=
          path_complete named pathTakes (lessTakes.atMark _)
        simp only [List.length_append, List.length_cons] at enough
        refine bind_eq_ok.mpr ⟨_, firstRead, bind_eq_ok.mpr ⟨_, pathRead, ?_⟩⟩
        dsimp only
        rw [if_pos lessTakes.atOwnMark]
        refine bind_eq_ok.mpr ⟨_, typeComplete _ _ _ _ ⟨isType, by omega⟩ typeTakes
          (endsType_of_further areTypes furtherTake), bind_eq_ok.mpr ⟨_, moreComplete _ _ _ _
            ⟨areTypes, by omega⟩ moreTakes greaterTakes.atOwnMark, bind_eq_ok.mpr ⟨_,
              Cursor.expectMark_eq_ok.mpr ⟨_, rfl, greaterTakes⟩, rfl⟩⟩⟩
    · rintro cursor tokens types behind ⟨areTypes, enough⟩ takes ends
      obtain ⟨greater, greaterTakes⟩ := Cursor.takes_of_atMark ends
      rw [moreTypes]
      cases areTypes with
      | none =>
        cases takes.eq_of_nil
        rw [greaterTakes.atMark]
        rfl
      | more isType areTypes =>
        obtain ⟨behindType, typeTakes, moreTakes⟩ := takes.tail.split
        simp only [List.length_append, List.length_cons] at enough
        rw [if_pos takes.atOwnMark]
        exact bind_eq_ok.mpr ⟨_, typeComplete _ _ _ _ ⟨isType, by omega⟩ typeTakes
          (endsType_of_further areTypes (moreTakes.trans greaterTakes)), bind_eq_ok.mpr ⟨_,
            moreComplete _ _ _ _ ⟨areTypes, by omega⟩ moreTakes ends, rfl⟩⟩

/-! ## Lists -/

section

variable {α : Type} {item : Cursor → Except CompileError (α × Cursor)} {mark : Char}
  {ends : Cursor → Bool} {expected : List String} {rule : List Token → α → Prop} {values : List α}
  {source : String} {fuel : Nat} {delimiter : Delimiter} {closing : String}

theorem listed_sound
    (itemSound : ∀ cursor value behind, cursor.source = source →
      item cursor = .ok (value, behind) → ∃ tokens, rule tokens value ∧ cursor.Takes tokens behind)
    (same : cursor.source = source)
    (read : listed item mark ends expected fuel cursor = .ok (values, behind)) :
    ∃ tokens, Listed mark rule tokens values ∧ cursor.Takes tokens behind ∧ ends behind = true := by
  induction fuel generalizing cursor values behind with
  | zero => cases read
  | succ fuel ih =>
    rw [listed] at read
    split at read
    · next atEnd =>
      cases read
      exact ⟨[], .none, Cursor.takes_nil _, atEnd⟩
    · obtain ⟨⟨value, behindItem⟩, itemRead, further⟩ := bind_eq_ok.mp read
      obtain ⟨tokens, own, takes⟩ := itemSound _ _ _ same itemRead
      dsimp only at further
      split at further
      · next atMark =>
        obtain ⟨span, markTakes⟩ := Cursor.takes_of_atMark atMark
        obtain ⟨⟨others, place⟩, othersRead, result⟩ := bind_eq_ok.mp further
        obtain ⟨rest, others, restTakes, atEnd⟩ :=
          ih ((takes.trans markTakes).source.trans same) othersRead
        cases pure_eq_ok.mp result
        exact ⟨_, .marked own others, takes.trans (markTakes.trans restTakes), atEnd⟩
      · split at further
        · next atEnd =>
          cases pure_eq_ok.mp further
          exact ⟨_, .last own, takes, atEnd⟩
        · exact absurd further throw_ne_ok

/-- Where items end, neither an item begins nor a mark stands. -/
theorem listed_complete
    (itemComplete : ∀ cursor tokens value behind, cursor.source = source → rule tokens value →
      cursor.Takes tokens behind → (behind.atMark mark 0 = true ∨ ends behind = true) →
        item cursor = .ok (value, behind))
    (begins : ∀ tokens value cursor behind, rule tokens value → cursor.Takes tokens behind →
      ends cursor = false)
    (stops : ∀ cursor : Cursor, ends cursor = true → cursor.atMark mark 0 = false)
    (same : cursor.source = source) (derived : Listed mark rule tokens values)
    (takes : cursor.Takes tokens behind) (enough : tokens.length < fuel)
    (atEnd : ends behind = true) :
    listed item mark ends expected fuel cursor = .ok (values, behind) := by
  induction derived generalizing cursor fuel with
  | none =>
    obtain ⟨fuel, rfl⟩ := Nat.exists_eq_add_of_lt enough
    cases takes.eq_of_nil
    rw [listed, if_pos atEnd]
  | last own =>
    obtain ⟨fuel, rfl⟩ := Nat.exists_eq_add_of_lt enough
    rw [listed, begins _ _ _ _ own takes]
    refine bind_eq_ok.mpr ⟨_, itemComplete _ _ _ _ same own takes (.inr atEnd), ?_⟩
    dsimp only
    rw [stops behind atEnd, atEnd]
    rfl
  | marked own further ih =>
    obtain ⟨fuel, rfl⟩ := Nat.exists_eq_add_of_lt enough
    obtain ⟨behindItem, itemTakes, markTakes⟩ := takes.split
    simp only [List.length_append, List.length_cons] at enough
    rw [listed, begins _ _ _ _ own itemTakes]
    refine bind_eq_ok.mpr
      ⟨_, itemComplete _ _ _ _ same own itemTakes (.inl markTakes.atOwnMark), ?_⟩
    dsimp only
    rw [if_pos markTakes.atOwnMark]
    exact bind_eq_ok.mpr ⟨_, ih
      ((itemTakes.trans markTakes.first).source.trans same) markTakes.tail (by simp; omega), rfl⟩

theorem atOpening_iff :
    atOpening cursor delimiter = true ↔ ∃ span, cursor.current = .opening delimiter span := by
  unfold atOpening
  split <;> simp_all

theorem atClosing_iff :
    atClosing cursor delimiter = true ↔ ∃ span, cursor.current = .closing delimiter span := by
  unfold atClosing
  split <;> simp_all

theorem atKeyword_iff {word : Keyword} :
    atKeyword cursor word = true ↔ ∃ span, cursor.current = .keyword word span := by
  unfold atKeyword
  split <;> simp_all

theorem bracketed_sound (itemSound : Sound item rule) (opened : atOpening cursor delimiter = true)
    (read : bracketed item delimiter closing cursor = .ok (values, behind)) :
    ∃ tokens, Bracketed delimiter rule tokens values ∧ cursor.Takes tokens behind := by
  obtain ⟨⟨found, behindItems⟩, itemsRead, same⟩ := bind_eq_ok.mp read
  obtain ⟨inner, derived, takes, atEnd⟩ :=
    listed_sound (fun cursor value behind _ => itemSound cursor value behind) rfl itemsRead
  obtain ⟨opening, atOpening⟩ := atOpening_iff.mp opened
  obtain ⟨closed, atClosing⟩ := atClosing_iff.mp atEnd
  have openingTakes := Cursor.takes_forward atOpening (by simp)
  have closingTakes := Cursor.takes_forward atClosing (by simp)
  cases pure_eq_ok.mp same
  exact ⟨_, .mk derived, openingTakes.trans (takes.trans closingTakes)⟩

theorem bracketed_complete
    (itemComplete : Complete item rule fun behind =>
      behind.atMark ',' 0 = true ∨ atClosing behind delimiter = true)
    (begins : ∀ tokens value, rule tokens value → ∃ name span more,
      tokens = .identifier name span :: more) (derived : Bracketed delimiter rule tokens values)
    (takes : cursor.Takes tokens behind) :
    atOpening cursor delimiter = true ∧
      bracketed item delimiter closing cursor = .ok (values, behind) := by
  obtain ⟨derived⟩ := derived
  obtain ⟨behindItems, itemsTake, closingTakes⟩ := takes.tail.split
  have closed : cursor.ahead.length = _ := congrArg List.length takes.1
  refine ⟨atOpening_iff.mpr ⟨_, takes.head⟩, bind_eq_ok.mpr ⟨_, listed_complete
    (fun cursor tokens value behind _ => itemComplete cursor tokens value behind) ?_ ?_ rfl
    derived itemsTake ?_ (atClosing_iff.mpr ⟨_, closingTakes.head⟩), ?_⟩⟩
  · intro tokens value cursor behind own takes
    obtain ⟨name, span, more, rfl⟩ := begins _ _ own
    rw [atClosing, takes.head]
  · intro cursor atEnd
    obtain ⟨span, current⟩ := atClosing_iff.mp atEnd
    exact (Cursor.takes_forward current (by simp)).atMark _
  · simp only [List.length_append, List.length_cons] at closed
    omega
  · dsimp only
    rw [closingTakes.forward]
    rfl

end

/-! ## Declarations -/

theorem listedName_sound : Sound listedName IsWord := by
  rintro cursor word behind read
  obtain ⟨⟨name, span, place⟩, nameRead, same⟩ := bind_eq_ok.mp read
  cases pure_eq_ok.mp same
  exact ⟨_, rfl, Cursor.expectIdentifier_eq_ok.mp nameRead⟩

theorem listedName_complete {ends : Cursor → Prop} : Complete listedName IsWord ends := by
  rintro cursor _ word behind rfl takes -
  exact bind_eq_ok.mpr ⟨_, Cursor.expectIdentifier_eq_ok.mpr takes, rfl⟩

theorem IsAttribute.exists_word (tokens : List Token) (found : AttributeDeclaration)
    (derived : IsAttribute tokens found) :
    ∃ first span more, tokens = .identifier first span :: more := by
  obtain ⟨name, parts, colon, type, rfl, named, -⟩ := derived
  obtain ⟨first, span, more, others, rfl, -⟩ := named.exists_word
  exact ⟨_, _, _, rfl⟩

theorem attributePair_sound : Sound attributePair IsAttribute := by
  rintro cursor found behind read
  obtain ⟨⟨key, behindName⟩, nameRead, behindNameRead⟩ := bind_eq_ok.mp read
  obtain ⟨⟨mark, behindColon⟩, colonRead, behindColonRead⟩ := bind_eq_ok.mp behindNameRead
  obtain ⟨⟨type, place⟩, typeRead, same⟩ := bind_eq_ok.mp behindColonRead
  obtain ⟨name, parts, named, rfl, nameTakes⟩ := attributeName_sound nameRead
  obtain ⟨colon, rfl, colonTakes⟩ := Cursor.expectMark_eq_ok.mp colonRead
  obtain ⟨tokens, isType, typeTakes⟩ := (types_sound _).1 _ _ _ typeRead
  obtain ⟨first, span, more, others, rfl, rfl⟩ := named.exists_word
  have takes := nameTakes.trans (colonTakes.trans typeTakes)
  cases pure_eq_ok.mp same
  refine ⟨_, ⟨_, _, colon, tokens, rfl, named, isType, rfl, takes.covers_iff.mpr ?_⟩, takes⟩
  dsimp only
  rw [takes.head]

theorem attributePair_complete : Complete attributePair IsAttribute fun behind =>
    behind.atMark ',' 0 = true ∨ atClosing behind .brace = true := by
  rintro cursor _ ⟨_, type, span⟩ behind
    ⟨name, parts, colon, tokens, rfl, named, isType, rfl, covers⟩ takes ends
  have endsType : EndsType behind := by
    rcases ends with atComma | atClosing
    · obtain ⟨comma, commaTakes⟩ := Cursor.takes_of_atMark atComma
      exact ⟨commaTakes.atMark _, commaTakes.atMark _⟩
    · obtain ⟨closed, current⟩ := atClosing_iff.mp atClosing
      have closingTakes := Cursor.takes_forward current (by simp)
      exact ⟨closingTakes.atMark _, closingTakes.atMark _⟩
  obtain ⟨behindName, nameTakes, colonTakes⟩ := takes.split
  obtain ⟨first, place, more, others, rfl, rfl⟩ := named.exists_word
  cases takes.covers_iff.mp covers
  refine bind_eq_ok.mpr ⟨_, attributeName_complete named nameTakes (colonTakes.atMark _),
    bind_eq_ok.mpr ⟨_, Cursor.expectMark_eq_ok.mpr ⟨_, rfl, colonTakes.first⟩,
      bind_eq_ok.mpr ⟨_, (types_complete _).1 _ _ _ _ ⟨isType, ?_⟩ colonTakes.tail endsType, ?_⟩⟩⟩
  · have := congrArg List.length colonTakes.tail.1
    rw [List.length_append] at this
    omega
  · dsimp only
    rw [takes.head]
    rfl

theorem nameList_sound : Sound nameList (Bracketed .bracket IsWord) := by
  intro cursor names behind read
  unfold nameList at read
  split at read
  · next opened => exact bracketed_sound listedName_sound opened read
  · cases read

theorem nameList_complete {names : List (String × Span)}
    (derived : Bracketed .bracket IsWord tokens names) (takes : cursor.Takes tokens behind) :
    atOpening cursor .bracket = true ∧ nameList cursor = .ok (names, behind) := by
  obtain ⟨opened, read⟩ := bracketed_complete listedName_complete
    (by rintro _ ⟨name, span⟩ rfl; exact ⟨_, _, _, rfl⟩) derived takes
  exact ⟨opened, by rw [nameList, if_pos opened, read]⟩

section

variable {α : Type} {absent value : α} {here : Cursor → Bool}
  {part : Cursor → Except CompileError (α × Cursor)} {rule : List Token → α → Prop}

theorem optionally_sound
    (partSound : here cursor = true → part cursor = .ok (value, behind) →
      ∃ tokens, rule tokens value ∧ cursor.Takes tokens behind)
    (read : optionally absent here part cursor = .ok (value, behind)) :
    ∃ tokens, Optional absent rule tokens value ∧ cursor.Takes tokens behind := by
  unfold optionally at read
  split at read
  · next found =>
    obtain ⟨tokens, derived, takes⟩ := partSound found read
    exact ⟨tokens, .inr derived, takes⟩
  · cases read
    exact ⟨[], .inl ⟨rfl, rfl⟩, Cursor.takes_nil _⟩

theorem optionally_complete
    (partComplete : rule tokens value →
      here cursor = true ∧ part cursor = .ok (value, behind))
    (derived : Optional absent rule tokens value) (takes : cursor.Takes tokens behind)
    (ends : here behind = false) : optionally absent here part cursor = .ok (value, behind) := by
  rcases derived with ⟨rfl, rfl⟩ | derived
  · cases takes.eq_of_nil
    rw [optionally, ends]
    rfl
  · obtain ⟨found, read⟩ := partComplete derived
    rw [optionally, if_pos found, read]

end

theorem categories_sound {found : List String} (atWord : atKeyword cursor .inWord = true)
    (read : categories cursor = .ok (found, behind)) :
    ∃ tokens, AreCategories tokens found ∧ cursor.Takes tokens behind := by
  obtain ⟨word, current⟩ := atKeyword_iff.mp atWord
  obtain ⟨⟨names, place⟩, namesRead, same⟩ := map_eq_ok.mp read
  obtain ⟨tokens, listed, takes⟩ := nameList_sound _ _ _ namesRead
  cases same
  exact ⟨_, .mk listed, (Cursor.takes_forward current (by simp)).trans takes⟩

theorem categories_complete {found : List String} (derived : AreCategories tokens found)
    (takes : cursor.Takes tokens behind) :
    atKeyword cursor .inWord = true ∧ categories cursor = .ok (found, behind) := by
  obtain ⟨listed⟩ := derived
  exact ⟨atKeyword_iff.mpr ⟨_, takes.head⟩,
    map_eq_ok.mpr ⟨_, (nameList_complete listed takes.tail).2, rfl⟩⟩

theorem content_sound {found : List (String × Span) × Option (String × Span)}
    (atWord : atKeyword cursor .withWord = true) (read : content cursor = .ok (found, behind)) :
    ∃ tokens, IsContent tokens found ∧ cursor.Takes tokens behind := by
  obtain ⟨word, current⟩ := atKeyword_iff.mp atWord
  obtain ⟨⟨names, behindNames⟩, namesRead, further⟩ := bind_eq_ok.mp read
  obtain ⟨tokens, listed, takes⟩ := optionally_sound (fun _ => nameList_sound _ _ _) namesRead
  have wordTakes := (Cursor.takes_forward current (by simp)).trans takes
  dsimp only at further
  split at further
  · next name span atName =>
    cases pure_eq_ok.mp further
    exact ⟨_, .constrained listed, wordTakes.trans (Cursor.takes_forward atName (by simp))⟩
  · split at further
    · exact absurd further throw_ne_ok
    · next notEmpty =>
      cases pure_eq_ok.mp further
      exact ⟨_, .required listed (mt List.isEmpty_iff.mpr notEmpty), wordTakes⟩

/-- A declaration ends at a semicolon or at the end of the text. -/
def EndsDeclaration (cursor : Cursor) : Prop :=
  cursor.atMark ';' 0 = true ∨ cursor.atEnd = true

theorem notPart_of_ends (ends : EndsDeclaration cursor) :
    (∀ delimiter, atOpening cursor delimiter = false) ∧ (∀ word, atKeyword cursor word = false) ∧
      ∀ name span, cursor.current ≠ .identifier name span := by
  rcases ends with atMark | atEnd
  · obtain ⟨span, takes⟩ := Cursor.takes_of_atMark atMark
    simp [atOpening, atKeyword, takes.head]
  · have current : cursor.current = .endOfInput cursor.stop := by
      simp [Cursor.current, Cursor.peek, List.isEmpty_iff.mp atEnd]
    simp [atOpening, atKeyword, current]

theorem content_complete {found : List (String × Span) × Option (String × Span)}
    (derived : IsContent tokens found) (takes : cursor.Takes tokens behind)
    (ends : EndsDeclaration behind) :
    atKeyword cursor .withWord = true ∧ content cursor = .ok (found, behind) := by
  obtain ⟨notOpening, -, notName⟩ := notPart_of_ends ends
  cases derived with
  | required listed notEmpty =>
    refine ⟨atKeyword_iff.mpr ⟨_, takes.head⟩, bind_eq_ok.mpr ⟨_, optionally_complete
      (fun derived => nameList_complete derived takes.tail) listed takes.tail (notOpening _), ?_⟩⟩
    dsimp only
    split
    · next name span atName => exact absurd atName (notName name span)
    · rw [if_neg (mt List.isEmpty_iff.mp notEmpty)]
      rfl
  | constrained listed =>
    obtain ⟨behindNames, namesTake, nameTakes⟩ := takes.tail.split
    have notOpening : atOpening behindNames .bracket = false := by
      rw [atOpening, nameTakes.head]
    refine ⟨atKeyword_iff.mpr ⟨_, takes.head⟩, bind_eq_ok.mpr ⟨_, optionally_complete
      (fun derived => nameList_complete derived namesTake) listed namesTake notOpening, ?_⟩⟩
    dsimp only
    rw [nameTakes.head, nameTakes.forward]
    rfl

theorem declaration_sound {source : String} (cursor : Cursor) (found : Declaration)
    (behind : Cursor) (same : cursor.source = source)
    (read : declaration cursor = .ok (found, behind)) :
    ∃ tokens, IsDeclaration source tokens found ∧ cursor.Takes tokens behind := by
  obtain ⟨⟨name, span, behindName⟩, nameRead, behindNameRead⟩ := bind_eq_ok.mp read
  obtain ⟨⟨attributes, behindBody⟩, bodyRead, behindBodyRead⟩ := bind_eq_ok.mp behindNameRead
  obtain ⟨⟨categories, behindIn⟩, categoriesRead, behindInRead⟩ := bind_eq_ok.mp behindBodyRead
  obtain ⟨⟨⟨required, constraint⟩, place⟩, contentRead, last⟩ := bind_eq_ok.mp behindInRead
  obtain ⟨body, isBody, bodyTakes⟩ :=
    optionally_sound (bracketed_sound attributePair_sound) bodyRead
  obtain ⟨membership, areCategories, membershipTakes⟩ :=
    optionally_sound categories_sound categoriesRead
  obtain ⟨content, isContent, contentTakes⟩ := optionally_sound content_sound contentRead
  have takes := (Cursor.expectIdentifier_eq_ok.mp nameRead).trans
    (bodyTakes.trans (membershipTakes.trans contentTakes))
  dsimp only at last
  split at last
  · cases pure_eq_ok.mp last
    exact ⟨_, ⟨span, body, membership, content, rfl, isBody, areCategories, isContent,
      takes.covers_iff.mpr rfl, same⟩, takes⟩
  · exact absurd last throw_ne_ok

theorem declaration_complete {source : String} (cursor : Cursor) (tokens : List Token)
    (found : Declaration) (behind : Cursor) (same : cursor.source = source)
    (derived : IsDeclaration source tokens found) (takes : cursor.Takes tokens behind)
    (ends : EndsDeclaration behind) : declaration cursor = .ok (found, behind) := by
  obtain ⟨span, body, membership, content, rfl, isBody, areCategories, isContent, covers, rfl⟩ :=
    derived
  obtain ⟨notOpening, notKeyword, -⟩ := notPart_of_ends ends
  obtain ⟨behindBody, bodyTakes, further⟩ := takes.tail.split
  obtain ⟨behindIn, membershipTakes, contentTakes⟩ := further.split
  have behindCategories :
      atOpening behindIn .brace = false ∧ atKeyword behindIn .inWord = false := by
    rcases isContent with ⟨rfl, -⟩ | derived
    · cases contentTakes.eq_of_nil
      exact ⟨notOpening _, notKeyword _⟩
    · obtain ⟨word, more, rfl⟩ := derived.exists_keyword
      exact ⟨by rw [atOpening, contentTakes.head], by rw [atKeyword, contentTakes.head]; rfl⟩
  have behindAttributes : atOpening behindBody .brace = false := by
    rcases areCategories with ⟨rfl, -⟩ | derived
    · cases membershipTakes.eq_of_nil
      exact behindCategories.1
    · obtain ⟨word, more, rfl⟩ := derived.exists_keyword
      rw [atOpening, membershipTakes.head]
  refine bind_eq_ok.mpr ⟨_, Cursor.expectIdentifier_eq_ok.mpr takes.first, bind_eq_ok.mpr ⟨_,
    optionally_complete (fun derived => bracketed_complete attributePair_complete
      IsAttribute.exists_word derived bodyTakes) isBody bodyTakes behindAttributes,
    bind_eq_ok.mpr ⟨_, optionally_complete (fun derived => categories_complete derived
      membershipTakes) areCategories membershipTakes behindCategories.2,
    bind_eq_ok.mpr ⟨_, optionally_complete (fun derived => content_complete derived contentTakes
      ends) isContent contentTakes (notKeyword _), ?_⟩⟩⟩⟩
  have whole : found.span = span.join behind.previous.span := takes.covers_iff.mp covers
  dsimp only
  rw [if_pos (Bool.or_eq_true_iff.mpr ends), ← whole, same]
  rfl

end Declaration.Grammar

namespace Declaration

theorem parseAll_eq_ok {source : String} {found : List Declaration} :
    parseAll source = .ok found ↔ ∃ tokens, tokenize source = .ok tokens ∧
      Listed ';' (IsDeclaration source) tokens.flatten.setKeywords.body found := by
  simp only [parseAll, bind_eq_ok, mapError_eq_ok, pure_eq_ok]
  constructor
  · rintro ⟨tokens, tokenized, ⟨_, behind⟩, read, rfl⟩
    obtain ⟨taken, derived, takes, atEnd⟩ :=
      Grammar.listed_sound Grammar.declaration_sound rfl read
    have whole : tokens.flatten.setKeywords.body = taken ++ behind.ahead := takes.1
    rw [List.isEmpty_iff.mp atEnd, List.append_nil] at whole
    exact ⟨tokens, tokenized, whole ▸ derived⟩
  · rintro ⟨tokens, tokenized, derived⟩
    have takes : (Cursor.ofTokens source tokens.flatten.setKeywords).Takes
        tokens.flatten.setKeywords.body (Cursor.past (.ofTokens source tokens.flatten.setKeywords)
          tokens.flatten.setKeywords.body []) := ⟨(List.append_nil _).symm, rfl⟩
    refine ⟨tokens, tokenized, (found, _), Grammar.listed_complete Grammar.declaration_complete
      ?_ ?_ rfl derived takes (Nat.lt_succ_self _) rfl, rfl⟩
    · rintro _ declaration cursor behind ⟨span, _, _, _, rfl, -⟩ takes
      rw [Cursor.atEnd, takes.1]
      rfl
    · intro cursor atEnd
      simp [Cursor.atMark, Cursor.peek, List.isEmpty_iff.mp atEnd, Token.isMark]

end Declaration

theorem Keyword.ofText?_eq_none {text : String} :
    ofText? text = none ↔ text ≠ "in" ∧ text ≠ "with" := by
  simp only [ofText?, List.find?_eq_none, List.mem_cons, List.not_mem_nil, or_false,
    forall_eq_or_imp, forall_eq, beq_iff_eq, Keyword.text]
  exact ⟨fun other => ⟨Ne.symm other.1, Ne.symm other.2⟩,
    fun other => ⟨Ne.symm other.1, Ne.symm other.2⟩⟩

theorem Token.setKeyword_identifier {name : String} (plain : Keyword.ofText? name = none)
    (span : Span) : (Token.identifier name span).setKeyword = .identifier name span := by
  rw [setKeyword, plain]

/-- Only a word that is no keyword is left a word. -/
theorem Token.setKeyword_eq_identifier {token : Token} {name : String} {span : Span} :
    token.setKeyword = .identifier name span ↔
      token = .identifier name span ∧ Keyword.ofText? name = none := by
  constructor
  · intro set
    unfold Token.setKeyword at set
    split at set
    · split at set
      · cases set
      · next plain =>
        cases set
        exact ⟨rfl, plain⟩
    · next notName => exact absurd set (notName name span)
  · rintro ⟨rfl, plain⟩
    exact setKeyword_identifier plain span

end TypedMarkup
