import TypedMarkup.Proofs.Markup.Locality
import TypedMarkup.Proofs.Schema.TypeTexts

/-!
Contract: declarations and markup read the same names.

Owns: `LooseDash`, `Declared`, `Written`, and the theorem that both grammars read one name from the
same tokens, so that they have the same attributes but for the keywords of declarations.

Keywords are words in markup only. So a name with a part `in` or `with` is read in markup as a whole
and in a declaration up to this part, and it is declared with underscores. There is no other
spelling of a name that is itself a keyword. Nothing is said of names in front of a loose dash.
-/

namespace TypedMarkup

open Lexis Markup

variable {span : Span} {cursor behind : Cursor} {name text key : String} {tokens : List Token}
  {character : Char} {token : Token}

/-! ## The same tokens -/

/-- Behind a name there is a dash directly, and then a word, but not directly. -/
def LooseDash (name : Span) (cursor : Cursor) : Prop :=
  ∃ dash part span rest, cursor.ahead = .mark '-' dash :: .identifier part span :: rest ∧
    name.stop.offset = dash.start.offset ∧ dash.stop.offset ≠ span.start.offset

section

variable {rest : List Token} {dash : Span} {part : String} {first : String} {parts : List String}

/-- A declaration reads what markup reads, and goes on from there. -/
theorem nameTail_goes_on (last : Span) (cursor : Cursor) :
    Declaration.Grammar.nameTail last cursor =
      ((Grammar.nameTail last cursor).1 ++ (Declaration.Grammar.nameTail
          (Grammar.nameTail last cursor).2.1 (Grammar.nameTail last cursor).2.2).1,
        (Declaration.Grammar.nameTail (Grammar.nameTail last cursor).2.1
          (Grammar.nameTail last cursor).2.2).2) := by
  fun_induction Grammar.nameTail last cursor with
  | case1 last cursor dash part span rest ahead adjacent tail ih =>
    rw [Declaration.Grammar.nameTail_part ahead, if_pos adjacent.1, ih]
    rfl
  | case2 => rfl
  | case3 => rfl

/-- Where markup stops, a dash does not stand between two words directly. -/
theorem nameTail_stops (last : Span) (cursor : Cursor)
    (ahead : (Grammar.nameTail last cursor).2.2.ahead =
      .mark '-' dash :: .identifier part span :: rest)
    (follows : (Grammar.nameTail last cursor).2.1.stop.offset = dash.start.offset) :
    dash.stop.offset ≠ span.start.offset := by
  fun_induction Grammar.nameTail last cursor with
  | case1 last cursor _ _ _ _ _ _ tail ih => exact ih ahead follows
  | case2 last cursor _ _ _ _ same apart =>
    cases same.symm.trans ahead
    exact fun precedes => apart ⟨follows, precedes⟩
  | case3 last cursor different => exact absurd ahead (different _ _ _ _)

/-- What markup reads as a name is read as its key in a declaration, if there is no loose dash
behind it. -/
theorem attributeName_of_name (read : Grammar.name cursor = .ok (text, span, behind))
    (tight : ¬ LooseDash span behind) :
    Declaration.Grammar.attributeName cursor = .ok (keyOf text, behind) := by
  obtain ⟨⟨first, place, behindFirst⟩, firstRead, same⟩ := bind_eq_ok.mp read
  cases pure_eq_ok.mp same
  refine bind_eq_ok.mpr ⟨_, firstRead, ?_⟩
  have stops : Declaration.Grammar.nameTail (Grammar.nameTail place behindFirst).2.1
      (Grammar.nameTail place behindFirst).2.2 =
        ([], (Grammar.nameTail place behindFirst).2.2) := by
    rw [Declaration.Grammar.nameTail]
    split
    · next ahead =>
      refine if_neg fun follows => tight ?_
      exact ⟨_, _, _, _, ahead, follows, nameTail_stops place behindFirst ahead follows⟩
    · rfl
  dsimp only
  rw [nameTail_goes_on, stops, List.append_nil]
  rfl

theorem name_eq_error_iff {error : CompileError} :
    Declaration.Grammar.attributeName cursor = .error error ↔
      Grammar.name cursor = .error error := by
  unfold Declaration.Grammar.attributeName Grammar.name
  cases cursor.expectIdentifier [Label.identifier] with
  | error failure => exact ⟨fun same => by cases same; rfl, fun same => by cases same; rfl⟩
  | ok found => exact iff_of_false (by rintro ⟨⟩) (by rintro ⟨⟩)

/-! ## Keywords -/

def Cursor.setKeywords (cursor : Cursor) : Cursor :=
  { cursor with
    passed := cursor.passed.map Token.setKeyword
    ahead := cursor.ahead.map Token.setKeyword }

theorem Cursor.setKeywords_forward (cursor : Cursor) :
    cursor.setKeywords.forward = cursor.forward.setKeywords := by
  cases ahead : cursor.ahead <;> simp [Cursor.forward, Cursor.setKeywords, ahead]

theorem Cursor.Takes.setKeywords (takes : cursor.Takes tokens behind) :
    cursor.setKeywords.Takes (tokens.map Token.setKeyword) behind.setKeywords := by
  refine ⟨by simp [Cursor.setKeywords, takes.1], ?_⟩
  rw [takes.2]
  simp [Cursor.setKeywords, Cursor.past]

def Markup.NameTree.words (tree : NameTree) : List Markup.Word :=
  tree.first :: tree.parts.map NamePart.word

theorem Markup.NameTree.names_words (tree : NameTree) :
    tree.words.map Markup.Word.name =
      tree.first.name :: tree.parts.map fun part => part.word.name := by
  rw [words, List.map_cons, List.map_map]
  rfl

theorem Markup.NameTree.token_mem {tree : NameTree} {word : Markup.Word}
    (member : word ∈ tree.words) : word.token ∈ tree.tokens := by
  rcases List.mem_cons.mp member with rfl | further
  · exact List.mem_cons_self
  · obtain ⟨part, inside, rfl⟩ := List.mem_map.mp further
    have own : part.word.token ∈ part.tokens := by simp [NamePart.tokens]
    exact List.mem_cons_of_mem _ (List.mem_flatMap.mpr ⟨part, inside, own⟩)

theorem Token.setKeyword_eq_mark :
    token.setKeyword = .mark character span ↔ token = .mark character span := by
  constructor
  · intro set
    unfold Token.setKeyword at set
    split at set
    · split at set <;> cases set
    · exact set
  · rintro rfl
    rfl

theorem exists_part_of_setKeyword
    (set : tokens.map Token.setKeyword = .mark '-' dash :: .identifier part span :: rest) :
    ∃ more, tokens = .mark '-' dash :: .identifier part span :: more := by
  obtain ⟨first, others, rfl, isDash, further⟩ := List.map_eq_cons_iff.mp set
  obtain ⟨second, more, rfl, isPart, -⟩ := List.map_eq_cons_iff.mp further
  rw [Token.setKeyword_eq_mark.mp isDash, (Token.setKeyword_eq_identifier.mp isPart).1]
  exact ⟨more, rfl⟩

theorem nameTail_setKeywords (last : Span) (cursor : Cursor)
    (plain : ∀ part ∈ (Grammar.nameTail last cursor).1, Keyword.ofText? part = none) :
    Grammar.nameTail last cursor.setKeywords =
      ((Grammar.nameTail last cursor).1, (Grammar.nameTail last cursor).2.1,
        (Grammar.nameTail last cursor).2.2.setKeywords) := by
  fun_induction Grammar.nameTail last cursor with
  | case1 last cursor dash part span rest ahead adjacent tail ih =>
    obtain ⟨partPlain, restPlain⟩ := List.forall_mem_cons.mp plain
    have kept : cursor.setKeywords.ahead =
        .mark '-' dash :: .identifier part span :: rest.map Token.setKeyword := by
      rw [Cursor.setKeywords, ahead, List.map_cons, List.map_cons,
        Token.setKeyword_identifier partPlain]
      rfl
    rw [Grammar.nameTail_part kept, if_pos adjacent, Cursor.setKeywords_forward,
      Cursor.setKeywords_forward]
    dsimp only
    rw [ih restPlain]
  | case2 last cursor dash part span rest ahead apart =>
    rw [Grammar.nameTail]
    split
    · next begins =>
      obtain ⟨more, same⟩ := exists_part_of_setKeyword begins
      cases ahead.symm.trans same
      rw [if_neg apart]
    · rfl
  | case3 last cursor different =>
    apply Grammar.nameTail_end
    intro dash part span rest begins
    obtain ⟨more, ahead⟩ := exists_part_of_setKeyword begins
    exact different dash part span more ahead

theorem name_setKeywords
    (read : cursor.expectIdentifier [Label.identifier] = .ok (first, span, behind))
    (plain : ∀ part ∈ first :: (Grammar.nameTail span behind).1, Keyword.ofText? part = none) :
    Grammar.name cursor.setKeywords =
      (Grammar.name cursor).map fun found => (found.1, found.2.1, found.2.2.setKeywords) := by
  obtain ⟨firstPlain, restPlain⟩ := List.forall_mem_cons.mp plain
  have set : cursor.setKeywords.expectIdentifier [Label.identifier] =
      .ok (first, span, behind.setKeywords) := by
    have takes := (Cursor.expectIdentifier_eq_ok.mp read).setKeywords
    rw [List.map_singleton, Token.setKeyword_identifier firstPlain] at takes
    exact Cursor.expectIdentifier_eq_ok.mpr takes
  simp only [Grammar.name, read, set, bind, Except.bind, pure, Except.pure, Except.map,
    nameTail_setKeywords span _ restPlain]

theorem Declaration.IsName.setKeyword_eq (named : IsName tokens parts)
    (member : (Token.identifier name span).setKeyword ∈ tokens) : Keyword.ofText? name = none := by
  have isWord : ∀ token ∈ tokens, (∃ part place, token = .identifier part place) ∨
      ∃ character place, token = .mark character place := by
    clear member
    induction named with
    | last part place => simp
    | further follows behind ih => simpa using ih
  rcases isWord _ member with ⟨part, place, same⟩ | ⟨character, place, same⟩
  · obtain ⟨own, plain⟩ := Token.setKeyword_eq_identifier.mp same
    cases own
    exact plain
  · cases Token.setKeyword_eq_mark.mp same

theorem LooseDash.of_setKeywords (loose : LooseDash span cursor.setKeywords) :
    LooseDash span cursor := by
  obtain ⟨dash, part, place, rest, ahead, follows, apart⟩ := loose
  obtain ⟨more, same⟩ := exists_part_of_setKeyword ahead
  exact ⟨dash, part, place, more, same, follows, apart⟩

/-- With the keywords set apart, this holds just if no part of the name is a keyword. -/
theorem attributeName_setKeywords (read : Grammar.name cursor = .ok (text, span, behind))
    (tight : ¬ LooseDash span behind) :
    ∃ tree : NameTree, tree.text = text ∧ cursor.Takes tree.tokens behind ∧
      (Declaration.Grammar.attributeName cursor.setKeywords =
          .ok (keyOf text, behind.setKeywords) ↔
        ∀ word ∈ tree.words, Keyword.ofText? word.name = none) := by
  obtain ⟨⟨first, place, behindFirst⟩, firstRead, same⟩ := bind_eq_ok.mp read
  obtain ⟨parts, last, chained, takesTail, tailRead⟩ := Grammar.nameTail_sound place behindFirst
  dsimp only at same
  rw [tailRead] at same
  obtain rfl : behind = last := by cases pure_eq_ok.mp same; rfl
  cases pure_eq_ok.mp same
  have takes := (Cursor.expectIdentifier_eq_ok.mp firstRead).trans takesTail
  refine ⟨⟨⟨first, place⟩, parts, chained⟩, rfl, takes, ?_, ?_⟩
  · intro agree word member
    obtain ⟨tokens, others, named, -, taken⟩ := Declaration.Grammar.attributeName_sound agree
    have whole := taken.1
    rw [Cursor.setKeywords, takes.1, List.map_append] at whole
    have own := List.append_cancel_right whole
    exact named.setKeyword_eq (own ▸ List.mem_map_of_mem (NameTree.token_mem member))
  · intro plain
    refine attributeName_of_name ?_ fun loose => tight loose.of_setKeywords
    rw [name_setKeywords firstRead, read]
    · rfl
    · rw [tailRead, ← NameTree.names_words ⟨⟨first, place⟩, parts, chained⟩]
      exact List.forall_mem_map.mpr plain

/-! ## Names as texts -/

theorem mem_flattenAll (member : token ∈ tokens)
    (single : token.flatten = [token]) : token ∈ flattenAll tokens := by
  obtain ⟨before, after, rfl⟩ := List.append_of_mem member
  simp [single]

theorem toList_dashed (first : String) (rest : List String) :
    ("-".intercalate (first :: rest)).toList =
      first.toList ++ rest.flatMap fun part => '-' :: part.toList := by
  induction rest generalizing first with
  | nil => simp
  | cons second more ih =>
    rw [String.intercalate_cons_cons, String.toList_append, ih]
    simp

theorem isIdentifier_keyOf {rest : List String} (isFirst : IsIdentifier first)
    (areParts : ∀ part ∈ rest, IsIdentifier part) :
    IsIdentifier (keyOf ("-".intercalate (first :: rest))) := by
  obtain ⟨character, more, rfl, begins, continues⟩ := isFirst
  rw [keyOf, toList_dashed, String.toList_ofList, List.cons_append, List.map_cons,
    ne_dash_of_continues (continues_of_begins begins)]
  refine ⟨_, _, rfl, begins, ?_⟩
  have undashed : ∀ found : Char, continuesIdentifier found = true ∨ found = '-' →
      continuesIdentifier (if found == '-' then '_' else found) = true := by
    rintro found (own | rfl)
    · rw [ne_dash_of_continues own]
      exact own
    · rfl
  refine List.forall_mem_map.mpr fun found member => undashed found ?_
  rcases List.mem_append.mp member with inFirst | inRest
  · exact .inl (continues found inFirst)
  · obtain ⟨part, isPart, inside⟩ := List.mem_flatMap.mp inRest
    rcases List.mem_cons.mp inside with rfl | inPart
    · exact .inr rfl
    · exact .inl ((areParts part isPart).continues found inPart)

/-! ## Attributes of schemas and of markup -/

/-- A key that some declaration gives to an attribute. -/
def Declared (key : String) : Prop :=
  ∃ source declarations, Declaration.parseAll source = .ok declarations ∧
    ∃ found ∈ declarations, ∃ own ∈ found.attributes, own.name = key

/-- A name that some element has for an attribute. -/
def Written (name : String) : Prop :=
  ∃ source unit tag children span, parse source = .ok unit ∧
    (Node.element tag children span).Within unit.root ∧ ∃ found ∈ tag.attributes, found.name = name

theorem Declaration.IsName.exists_parts (named : IsName tokens parts) :
    parts ≠ [] ∧ ∀ part ∈ parts, ∃ span, .identifier part span ∈ tokens := by
  induction named with
  | last part span => simp
  | further follows behind ih =>
    refine ⟨List.cons_ne_nil _ _, List.forall_mem_cons.mpr ⟨⟨_, List.mem_cons_self⟩, ?_⟩⟩
    intro part member
    obtain ⟨span, inside⟩ := ih.2 part member
    exact ⟨span, by simp [inside]⟩

end

/-- A declared key comes from words that are no keywords. -/
theorem Declared.exists_parts (declared : Declared key) :
    ∃ first rest, key = keyOf ("-".intercalate (first :: rest)) ∧
      ∀ part ∈ first :: rest, IsPlain part := by
  obtain ⟨source, declarations, read, found, member, own, isOwn, rfl⟩ := declared
  obtain ⟨_, ⟨name, parts, colon, type, rfl, named, -, isKey, -⟩, plain⟩ :=
    exists_attribute read member isOwn
  have fromText : ∀ part ∈ parts, IsPlain part := by
    intro part isPart
    obtain ⟨span, inName⟩ := named.exists_parts.2 part isPart
    exact plain part span (List.mem_append_left _ inName)
  obtain ⟨first, rest, rfl⟩ := List.exists_cons_of_ne_nil named.exists_parts.1
  exact ⟨first, rest, isKey, fromText⟩

theorem Declared.isIdentifier (declared : Declared key) :
    IsIdentifier key ∧ key ≠ "in" ∧ key ≠ "with" := by
  obtain ⟨first, rest, rfl, parts⟩ := declared.exists_parts
  obtain ⟨⟨isFirst, plain⟩, others⟩ := List.forall_mem_cons.mp parts
  refine ⟨isIdentifier_keyOf isFirst fun part member => (others part member).1, ?_⟩
  cases rest with
  | nil =>
    rw [String.intercalate_singleton, isFirst.keyOf_eq]
    exact plain
  | cons second more =>
    -- a name of several parts has an underscore in its key
    have joined : '_' ∈ (keyOf ("-".intercalate (first :: second :: more))).toList := by
      rw [keyOf, String.toList_ofList, toList_dashed]
      exact List.mem_map.mpr ⟨'-', by simp, rfl⟩
    refine ⟨?_, ?_⟩ <;> intro same <;> rw [same] at joined <;> simp at joined

theorem Written.isIdentifier (written : Written name) :
    IsIdentifier (keyOf name) := by
  obtain ⟨source, unit, tag, children, span, read, within, found, member, rfl⟩ := written
  obtain ⟨tokens, tokensRead, unitRead⟩ := bind_eq_ok.mp read
  have tokenized : tokenize source = .ok tokens := mapError_eq_ok.mp tokensRead
  obtain ⟨unitTree, derives, rfl⟩ := Grammar.unit_sound unitRead
  obtain ⟨tree, denotes, inRoot⟩ := within.exists_tree unitTree.root rfl
  obtain ⟨_, attributes, _, -, -, own, -, parts⟩ := NodeTree.exists_parts denotes
  rw [own] at member
  obtain ⟨written, last, rfl⟩ := AttributeTree.mem_denotedAll.mp member
  have inBody : tree.tokens ⊆ tokens.body := by
    rw [UnitTree.tokens, Tokens.toList, ← List.append_assoc] at derives
    rw [← (List.append_inj' derives rfl).1]
    exact List.Subset.trans inRoot.subset (List.subset_append_left _ _)
  have inText : ∀ word ∈ written.name.words, IsIdentifier word.name := by
    intro word isWord
    have inAttribute : word.token ∈ written.tokens :=
      List.mem_append_left _ (NameTree.token_mem isWord)
    have inTree : word.token ∈ tree.tokens := parts.subset (List.mem_append_right _
      (List.mem_append_left _ (List.mem_flatMap.mpr ⟨written, last.mem, inAttribute⟩)))
    exact isIdentifier_of_tokenize tokenized (mem_flattenAll (inBody inTree) rfl)
  obtain ⟨isFirst, areParts⟩ := List.forall_mem_cons.mp inText
  refine isIdentifier_keyOf isFirst ?_
  rw [List.forall_mem_map] at areParts ⊢
  exact areParts

/-! ## Texts for a key -/

/-- The text `<e NAME=1/>` -/
theorem exists_element (isName : IsIdentifier name) :
    ∃ source tokens, tokenize source = .ok tokens ∧ ∃ less tag word equals number slash greater,
      tokens.body = [.mark '<' less, .identifier "e" tag, .identifier name word,
        .mark '=' equals, .number "1" number, .mark '/' slash, .mark '>' greater] := by
  obtain ⟨first, rest, rfl, begins, continues⟩ := isName
  let layout : Layout := ⟨[.word (.mark '<' rfl),
    .word (.identifier 'e' [] rfl (List.forall_mem_nil _)), .gap (.blank ' ' rfl),
    .word (.identifier first rest begins continues), .word (.mark '=' rfl),
    .word (.number '1' [] rfl trivial), .word (.mark '/' rfl), .word (.mark '>' rfl)], none⟩
  have longest : layout.Longest := by
    simp only [layout, Layout.Longest, LongestAll, Piece.LongestBefore, and_true, true_and]
    refine ⟨longest_mark _, longest_identifier ?_, longest_identifier ?_, longest_mark _,
      longest_number ?_, longest_mark _, longest_mark _⟩
    all_goals simp only [writtenAll_cons, writtenAll_nil, written_word, written_gap, Gap.written,
      Word.written, Word.first, Word.tail, List.cons_append, List.nil_append]
    · exact stops_cons rfl _
    · exact stops_cons rfl _
    · rfl
  refine ⟨_, _, tokenize_layout longest (String.toList_ofList).symm, ?_⟩
  simp only [layout, Layout.tokens, tokensAll, Piece.tokens, Lexis.Word.token, Word.written,
    Word.first, Word.tail, List.cons_append, List.nil_append]
  exact ⟨_, _, _, _, _, _, _, rfl⟩

theorem declared_of_isIdentifier (isKey : IsIdentifier key)
    (plain : Keyword.ofText? key = none) : Declared key := by
  have isPlain : IsPlain key := ⟨isKey, Keyword.ofText?_eq_none.mp plain⟩
  have type : TypeSpec.Named (.mk "T" []) := .letter rfl
  have each : ∀ own ∈ [(key, TypeSpec.mk "T" [])], IsPlain own.1 ∧ own.2.Named :=
    List.forall_mem_singleton.mpr ⟨isPlain, type⟩
  have element : IsPlain "e" := isPlain_letter rfl
  obtain ⟨found, read, -, same⟩ := readsBack element each
  obtain ⟨own, rest, attributes, isOwn, -⟩ := List.map_eq_cons_iff.mp same
  exact ⟨_, _, read, found, List.mem_singleton_self _, own,
    attributes ▸ List.mem_cons_self, congrArg Prod.fst isOwn⟩

theorem written_of_isIdentifier (isName : IsIdentifier name) : Written name := by
  obtain ⟨source, tokens, tokenized, less, tag, word, equals, number, slash, greater, body⟩ :=
    exists_element isName
  let own : AttributeTree := ⟨⟨⟨name, word⟩, [], trivial⟩, equals, .number "1" number⟩
  let root : NodeTree := .single less ⟨⟨"e", tag⟩, [], trivial⟩ [own] slash greater
  have read : parse source = .ok (UnitTree.denoted ⟨root, none, tokens.stop⟩) := by
    rw [parse, tokensOf, tokenized]
    refine Grammar.unit_complete ⟨root, none, tokens.stop⟩ ?_
    rw [Tokens.toList, body]
    rfl
  have kept : own.denoted ∈ AttributeTree.denotedAll [own] :=
    AttributeTree.mem_denotedAll.mpr ⟨own, ⟨[], [], rfl, List.forall_mem_nil _⟩, rfl⟩
  have named : "-".intercalate [name] = name := String.intercalate_singleton
  exact ⟨source, _, _, _, _, read, .self _, own.denoted, kept, named⟩

/-- Both grammars read the same names. From the same tokens they both fail, or they read the same
tokens as a name and as its key, its parts joined by adjacent dashes. With the keywords set apart a
declaration does this just if no part is a keyword. The keys that can be declared are those of the
names that can be written, without the keywords. -/
theorem grammars_read_the_same_names :
    (∀ cursor : Cursor,
      (∀ error, Declaration.Grammar.attributeName cursor = .error error ↔
        Grammar.name cursor = .error error) ∧
      ∀ text span behind, Grammar.name cursor = .ok (text, span, behind) →
        ¬ LooseDash span behind →
        Declaration.Grammar.attributeName cursor = .ok (keyOf text, behind) ∧
        ∃ tree : NameTree, tree.text = text ∧ cursor.Takes tree.tokens behind ∧
          (Declaration.Grammar.attributeName cursor.setKeywords =
              .ok (keyOf text, behind.setKeywords) ↔
            ∀ word ∈ tree.words, word.name ≠ "in" ∧ word.name ≠ "with")) ∧
    ∀ key, Declared key ↔
      (∃ name, Written name ∧ keyOf name = key) ∧ key ≠ "in" ∧ key ≠ "with" := by
  refine ⟨fun cursor => ⟨fun error => name_eq_error_iff, ?_⟩, fun key => ⟨?_, ?_⟩⟩
  · intro text span behind read tight
    simp only [← Keyword.ofText?_eq_none]
    exact ⟨attributeName_of_name read tight, attributeName_setKeywords read tight⟩
  · intro declared
    obtain ⟨isKey, notKeyword⟩ := declared.isIdentifier
    exact ⟨⟨key, written_of_isIdentifier isKey, isKey.keyOf_eq⟩, notKeyword⟩
  · rintro ⟨⟨name, written, rfl⟩, notKeyword⟩
    exact declared_of_isIdentifier written.isIdentifier (Keyword.ofText?_eq_none.mpr notKeyword)

/-- The tokens of `a-in-`. -/
def dashedWords : Cursor where
  source := "a-in-"
  passed := []
  ahead := [.identifier "a" ⟨⟨1, 1, 0⟩, ⟨1, 2, 1⟩⟩, .mark '-' ⟨⟨1, 2, 1⟩, ⟨1, 3, 2⟩⟩,
    .identifier "in" ⟨⟨1, 3, 2⟩, ⟨1, 5, 4⟩⟩, .mark '-' ⟨⟨1, 5, 4⟩, ⟨1, 6, 5⟩⟩]
  stop := ⟨1, 6, 5⟩

theorem dashedWords_are_read_alike :
    ∃ behind, Grammar.name dashedWords = .ok ("a-in", ⟨⟨1, 1, 0⟩, ⟨1, 5, 4⟩⟩, behind) ∧
      Declaration.Grammar.attributeName dashedWords = .ok ("a_in", behind) := by
  have read : Grammar.name dashedWords = .ok ("a-in", ⟨⟨1, 1, 0⟩, ⟨1, 5, 4⟩⟩,
      dashedWords.forward.forward.forward) := by
    refine bind_eq_ok.mpr ⟨_, rfl, ?_⟩
    dsimp only
    rw [Grammar.nameTail_part rfl, if_pos (by decide), Grammar.nameTail_end]
    · rfl
    · rintro _ _ _ _ ⟨⟩
  refine ⟨_, read, ((grammars_read_the_same_names.1 dashedWords).2 _ _ _ read ?_).1⟩
  rintro ⟨_, _, _, _, ahead, -⟩
  cases ahead

/-- A keyword is a name in markup and no attribute of a declaration. -/
theorem keyword_is_written_and_not_declared : Written "in" ∧ ¬ Declared (keyOf "in") := by
  have isName : IsIdentifier "in" := ⟨'i', ['n'], rfl, rfl, List.forall_mem_singleton.mpr rfl⟩
  refine ⟨written_of_isIdentifier isName, fun declared => ?_⟩
  rw [isName.keyOf_eq] at declared
  exact declared.isIdentifier.2.1 rfl

end TypedMarkup
