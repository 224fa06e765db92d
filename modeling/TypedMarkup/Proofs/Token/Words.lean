import Mathlib.Data.List.TakeWhile
import TypedMarkup.Proofs.Success
import TypedMarkup.Proofs.Token.Language
import TypedMarkup.Token.Scan

/-!
Contract: reading a lexeme finds a word of the language.

Owns: for escapes, quoted texts and every other kind of lexeme, that what is read is a word, and
that the longest word in front of a text is what is read.

Does not own: gaps, and the matching of brackets.
-/

namespace TypedMarkup

open Lexis

variable {text tail after : List Char} {piece : Piece}

/-! ## Classes of characters -/

section

variable {character : Char}

/-- Characters are told apart by a class that only one of them has. -/
theorem ne_of_class {inClass : Char → Bool} (inside : inClass character = true) (other : Char)
    (outside : inClass other = false) : character ≠ other := by
  rintro rfl
  rw [inside] at outside
  cases outside

theorem Delimiter.closing_of_ofClosing? {delimiter : Delimiter}
    (found : Delimiter.ofClosing? character = some delimiter) : delimiter.closing = character := by
  simpa using List.find?_some found

theorem Delimiter.opening_of_ofOpening? {delimiter : Delimiter}
    (found : Delimiter.ofOpening? character = some delimiter) : delimiter.opening = character := by
  simpa using List.find?_some found

/-- A class without brackets begins no lexeme of one bracket. -/
theorem not_bracket_of_class {inClass : Char → Bool} (inside : inClass character = true)
    (outside : ∀ delimiter : Delimiter, inClass delimiter.closing = false ∧
      inClass delimiter.opening = false) :
    Delimiter.ofClosing? character = none ∧ Delimiter.ofOpening? character = none := by
  constructor
  · rw [Option.eq_none_iff_forall_ne_some]
    intro delimiter found
    exact ne_of_class inside _ (outside delimiter).1 (Delimiter.closing_of_ofClosing? found).symm
  · rw [Option.eq_none_iff_forall_ne_some]
    intro delimiter found
    exact ne_of_class inside _ (outside delimiter).2 (Delimiter.opening_of_ofOpening? found).symm

/-- What holds of the listed marks holds of every mark. -/
theorem of_isMark (property : Char → Bool)
    (all : "!$%&*+,-./:;<=>?@\\^`|~".toList.all property = true)
    (legal : isMark character = true) : property character = true :=
  List.all_eq_true.mp all character (List.contains_iff_mem.mp legal)

theorem not_beginsIdentifier_of_isDigit (digit : character.isDigit = true) :
    beginsIdentifier character = false := by
  have notUnderscore : character ≠ '_' := ne_of_class digit '_' (by decide)
  have notLetter : ¬ character.isAlpha = true := by
    intro letter
    change (decide (character.val ≥ 48) && decide (character.val ≤ 57)) = true at digit
    change (decide (character.val ≥ 65 ∧ character.val ≤ 90) ||
      (decide (character.val ≥ 97) && decide (character.val ≤ 122))) = true at letter
    simp only [Bool.or_eq_true, Bool.and_eq_true, decide_eq_true_eq, ge_iff_le,
      UInt32.le_iff_toNat_le] at digit letter
    change 48 ≤ character.toNat ∧ character.toNat ≤ 57 at digit
    change 65 ≤ character.toNat ∧ character.toNat ≤ 90 ∨
      97 ≤ character.toNat ∧ character.toNat ≤ 122 at letter
    omega
  simp [beginsIdentifier, notUnderscore, notLetter]

end

/-! ## Escapes -/

theorem hexNumber_eq_codeOf {digits : List Char}
    (hex : ∀ digit ∈ digits, isHexDigit digit = true) : hexNumber digits = codeOf digits := by
  have value : ∀ digit ∈ digits,
      hexValue digit = "0123456789abcdef".toList.idxOf digit.toLower := by
    intro digit member
    have all : "0123456789abcdefABCDEF".toList.all (fun digit =>
        hexValue digit == "0123456789abcdef".toList.idxOf digit.toLower) = true := by decide
    simpa using List.all_eq_true.mp all digit (List.contains_iff_mem.mp (hex digit member))
  have reversed : ∀ digit ∈ digits.reverse,
      hexValue digit = "0123456789abcdef".toList.idxOf digit.toLower :=
    fun digit member => value digit (List.mem_reverse.mp member)
  rw [codeOf, ← List.map_congr_left reversed, Nat.ofDigits_eq_foldr, List.foldr_map,
    List.foldr_reverse, hexNumber]
  simp [Nat.add_comm]

namespace Scan

theorem simpleEscape?_eq_some {letter denoted : Char} :
    simpleEscape? letter = some denoted ↔ (letter, denoted) ∈ simpleEscapes := by
  constructor
  · intro found
    unfold simpleEscape? at found
    split at found
    all_goals cases found
    all_goals simp [simpleEscapes]
  · intro listed
    simp only [simpleEscapes, List.mem_cons, Prod.mk.injEq, List.not_mem_nil, or_false] at listed
    rcases listed with ⟨rfl, rfl⟩ | ⟨rfl, rfl⟩ | ⟨rfl, rfl⟩ | ⟨rfl, rfl⟩ | ⟨rfl, rfl⟩ | ⟨rfl, rfl⟩ |
      ⟨rfl, rfl⟩
    all_goals rfl

theorem hexEscape_sound (read : hexEscape text = .ok piece) :
    ∃ first second, isHexDigit first = true ∧ isHexDigit second = true ∧
      piece.written = [first, second] := by
  unfold hexEscape at read
  split at read
  · next first second rest =>
    split at read
    · cases read
    · next firstHex =>
      split at read
      · cases read
      · next secondHex =>
        cases read
        exact ⟨first, second, by simpa using firstHex, by simpa using secondHex, rfl⟩
  · cases read
  · cases read

theorem codePointEscape_sound (read : codePointEscape text = .ok piece) :
    ∃ digits, digits ≠ [] ∧ digits.length ≤ 6 ∧ (∀ digit ∈ digits, isHexDigit digit = true) ∧
      codeOf digits ≤ 0x10FFFF ∧ piece.written = '\x7b' :: digits ++ ['\x7d'] := by
  unfold codePointEscape at read
  split at read
  · next rest =>
    split at read
    · dsimp only at read
      split at read
      · cases read
      · next counted =>
        split at read
        · cases read
        · next ranged =>
          cases read
          have hex : ∀ digit ∈ rest.takeWhile isHexDigit, isHexDigit digit = true :=
            fun digit member => List.mem_takeWhile_imp member
          simp only [Bool.or_eq_true, List.isEmpty_iff, decide_eq_true_eq, not_or,
            Nat.not_lt] at counted
          refine ⟨_, counted.1, counted.2, hex, ?_, rfl⟩
          rw [← hexNumber_eq_codeOf hex]
          omega
    · cases read
  · cases read

theorem escape_sound (read : escape text = .ok piece) :
    ∃ found : Escape, found.written = piece.written := by
  unfold escape at read
  split at read
  · cases read
  · next letter rest =>
    split at read
    · next denoted found =>
      cases read
      exact ⟨.simple letter denoted (simpleEscape?_eq_some.mp found), rfl⟩
    · split at read
      · next isX =>
        obtain ⟨inner, innerRead, rfl⟩ := map_eq_ok.mp read
        obtain ⟨first, second, firstHex, secondHex, written⟩ := hexEscape_sound innerRead
        refine ⟨.hex first second firstHex secondHex, ?_⟩
        rw [written, eq_of_beq isX]
        rfl
      · split at read
        · next isU =>
          obtain ⟨inner, innerRead, rfl⟩ := map_eq_ok.mp read
          obtain ⟨digits, nonempty, short, hex, inRange, written⟩ :=
            codePointEscape_sound innerRead
          refine ⟨.codePoint digits nonempty short hex inRange, ?_⟩
          rw [written, eq_of_beq isU]
          rfl
        · cases read

/-- The digits of an escape end where its brace closes. -/
theorem span_hexDigits {digits : List Char} (hex : ∀ digit ∈ digits, isHexDigit digit = true)
    (rest : List Char) :
    (digits ++ '\x7d' :: rest).takeWhile isHexDigit = digits ∧
      (digits ++ '\x7d' :: rest).dropWhile isHexDigit = '\x7d' :: rest := by
  constructor
  · rw [List.takeWhile_append_of_pos hex, List.takeWhile_cons_of_neg (by decide), List.append_nil]
  · rw [List.dropWhile_append_of_pos hex, List.dropWhile_cons_of_neg (by decide)]

/-- Every escape is read, whatever follows it. -/
theorem escape_complete (found : Escape) (rest : List Char) :
    escape (found.written ++ rest) = .ok ⟨found.denoted, found.written, rest⟩ := by
  cases found with
  | simple letter denoted listed =>
    rw [Escape.written, List.singleton_append, escape, simpleEscape?_eq_some.mpr listed]
    rfl
  | hex first second firstHex secondHex =>
    have number : hexNumber [first, second] = codeOf [first, second] :=
      hexNumber_eq_codeOf (by simp [firstHex, secondHex])
    simp [Escape.written, Escape.denoted, escape, simpleEscape?, hexEscape, firstHex, secondHex,
      number, Except.map]
  | codePoint digits nonempty short hex inRange =>
    obtain ⟨taken, dropped⟩ := span_hexDigits hex rest
    have counted : ¬ (digits.isEmpty || decide (6 < digits.length)) = true := by
      simp only [Bool.or_eq_true, List.isEmpty_iff, decide_eq_true_eq, not_or, Nat.not_lt]
      exact ⟨nonempty, short⟩
    have ranged : ¬ 0x10FFFF < hexNumber digits := by
      rw [hexNumber_eq_codeOf hex]
      omega
    have inner : codePointEscape ('\x7b' :: (digits ++ '\x7d' :: rest)) =
        .ok ⟨Char.ofNat (codeOf digits), '\x7b' :: digits ++ ['\x7d'], rest⟩ := by
      simp only [codePointEscape, dropped, taken]
      rw [if_neg counted, if_neg ranged, hexNumber_eq_codeOf hex]
    have begins : (Escape.codePoint digits nonempty short hex inRange).written ++ rest =
        'u' :: '\x7b' :: (digits ++ '\x7d' :: rest) := by
      simp [Escape.written]
    rw [begins, escape, inner]
    rfl

/-! ## Quoted texts -/

theorem content_sound {quote : Char} {found : Content} (read : content quote text = .ok found) :
    ∃ items : List (Item quote), items.flatMap Item.written ++ [quote] = found.written := by
  fun_induction content quote text generalizing found with
  | case1 | case3 | case4 | case6 => cases read
  | case2 character rest closes =>
    cases read
    exact ⟨[], by rw [eq_of_beq closes]; rfl⟩
  | case5 character rest _ isBackslash piece escaped more inner ih =>
    cases read
    obtain ⟨items, written⟩ := ih inner
    obtain ⟨own, ownWritten⟩ := escape_sound escaped
    refine ⟨.escape own :: items, ?_⟩
    rw [eq_of_beq isBackslash, ← written, ← ownWritten]
    simp [Item.written]
  | case7 character rest notQuote notBackslash more inner ih =>
    cases read
    obtain ⟨items, written⟩ := ih inner
    refine ⟨.plain character (by simpa using notQuote) (by simpa using notBackslash) :: items, ?_⟩
    rw [← written]
    simp [Item.written]

theorem content_complete {quote : Char} (notBackslash : quote ≠ '\\')
    (items : List (Item quote)) (rest : List Char) :
    content quote (items.flatMap Item.written ++ quote :: rest) =
      .ok ⟨items.map Item.denoted, items.flatMap Item.written ++ [quote], rest⟩ := by
  induction items with
  | nil =>
    rw [List.flatMap_nil, List.nil_append, content, if_pos (beq_self_eq_true quote)]
    rfl
  | cons item more ih =>
    cases item with
    | plain character notQuote isPlain =>
      have begins : (Item.plain character notQuote isPlain :: more).flatMap Item.written ++
          quote :: rest = character :: (more.flatMap Item.written ++ quote :: rest) := by
        simp [Item.written]
      rw [begins, content, if_neg (by simpa using notQuote), if_neg (by simpa using isPlain),
        ih]
      simp [Item.written, Item.denoted]
    | escape found =>
      have begins : (Item.escape found :: more).flatMap Item.written ++ quote :: rest =
          '\\' :: (found.written ++ (more.flatMap Item.written ++ quote :: rest)) := by
        simp [Item.written]
      rw [begins, content, if_neg (by simpa using notBackslash.symm), if_pos (by decide)]
      split
      · next cause failed =>
        rw [escape_complete] at failed
        cases failed
      · next piece read =>
        rw [escape_complete] at read
        cases read
        rw [ih]
        simp [Item.written, Item.denoted]

/-! ## Numbers -/

theorem splitNumber_continues (text : List Char) : ContinuesNumber (splitNumber text).1 := by
  induction text with
  | nil => trivial
  | cons character rest ih =>
    unfold splitNumber
    split
    · next goesOn =>
      refine ⟨?_, ih⟩
      simp only [Bool.or_eq_true, Bool.and_eq_true, beq_iff_eq] at goesOn
      rcases goesOn with continues | ⟨isPoint, before⟩
      · exact .inl continues
      · refine .inr ⟨isPoint, ?_⟩
        cases rest with
        | nil => cases before
        | cons digit more =>
          have isDigit : digit.isDigit = true := before
          refine ⟨digit, (splitNumber more).1, ?_, isDigit⟩
          rw [splitNumber, if_pos (by simp [continuesIdentifier, isDigit])]
    · trivial

/-- What continues a number is read whole, whatever follows. -/
theorem splitNumber_append_of_continues (continues : ContinuesNumber tail) (rest : List Char) :
    splitNumber (tail ++ rest) = (tail ++ (splitNumber rest).1, (splitNumber rest).2) := by
  induction tail with
  | nil => rfl
  | cons character more ih =>
    obtain ⟨here, further⟩ := continues
    have goesOn : (continuesIdentifier character ||
        character == '.' && ((more ++ rest).head?.map Char.isDigit).getD false) = true := by
      rcases here with continues | ⟨rfl, digit, others, rfl, isDigit⟩
      · simp [continues]
      · simp [isDigit]
    rw [List.cons_append, splitNumber, if_pos goesOn, ih further]
    rfl

/-! ## Lexemes -/

section

variable {first : Char} {rest : List Char}

theorem lexeme_closing (delimiter : Delimiter) (rest : List Char) :
    lexeme delimiter.closing rest = .ok ⟨.closing delimiter, [delimiter.closing], rest⟩ := by
  cases delimiter <;> rfl

theorem lexeme_opening (delimiter : Delimiter) (rest : List Char) :
    lexeme delimiter.opening rest = .ok ⟨.opening delimiter, [delimiter.opening], rest⟩ := by
  cases delimiter <;> rfl

theorem lexeme_quote (quote : Quote) (rest : List Char) :
    lexeme quote.character rest = literal quote.character rest := by
  cases quote <;> rfl

theorem lexeme_digit (digit : first.isDigit = true) (rest : List Char) :
    lexeme first rest =
      .ok ⟨.number, first :: (splitNumber rest).1, (splitNumber rest).2⟩ := by
  obtain ⟨notClosing, notOpening⟩ := not_bracket_of_class digit fun delimiter => by
    cases delimiter <;> decide
  have notQuote : ¬ (first == '"' || first == '\'') = true := by
    simp [ne_of_class digit '"' rfl, ne_of_class digit '\'' rfl]
  unfold lexeme
  rw [notClosing, notOpening]
  simp only
  rw [if_neg notQuote, if_pos digit]

theorem lexeme_letter (letter : beginsIdentifier first = true) (rest : List Char) :
    lexeme first rest =
      .ok ⟨.identifier, first :: rest.takeWhile continuesIdentifier,
        rest.dropWhile continuesIdentifier⟩ := by
  obtain ⟨notClosing, notOpening⟩ := not_bracket_of_class letter fun delimiter => by
    cases delimiter <;> decide
  have notQuote : ¬ (first == '"' || first == '\'') = true := by
    simp [ne_of_class letter '"' rfl, ne_of_class letter '\'' rfl]
  have notDigit : ¬ first.isDigit = true := by
    intro digit
    rw [not_beginsIdentifier_of_isDigit digit] at letter
    cases letter
  unfold lexeme
  rw [notClosing, notOpening]
  simp only
  rw [if_neg notQuote, if_neg notDigit, if_pos letter]

theorem lexeme_mark (legal : isMark first = true) (rest : List Char) :
    lexeme first rest = .ok ⟨.mark first, [first], rest⟩ := by
  obtain ⟨notClosing, notOpening⟩ := not_bracket_of_class legal fun delimiter => by
    cases delimiter <;> decide
  have other : (!(first == '"' || first == '\'') && !first.isDigit && !beginsIdentifier first) =
      true :=
    of_isMark (fun character => !(character == '"' || character == '\'') && !character.isDigit &&
      !beginsIdentifier character) (by decide) legal
  simp only [Bool.and_eq_true, Bool.not_eq_true'] at other
  unfold lexeme
  rw [notClosing, notOpening]
  simp [other, legal]

end

/-- A quoted text is read up to its quote, whatever follows. -/
theorem literal_complete (quote : Quote) (items : List (Item quote.character)) (after : List Char) :
    literal quote.character ((Lexis.Word.quoted quote items).tail ++ after) =
      .ok ⟨.quoted (items.map Item.denoted), (Lexis.Word.quoted quote items).written, after⟩ := by
  have notBackslash : quote.character ≠ '\\' := by cases quote <;> decide
  have text : (Lexis.Word.quoted quote items).tail ++ after =
      items.flatMap Item.written ++ quote.character :: after := by
    simp [Word.tail]
  rw [text, literal, content_complete notBackslash]
  rfl

end Scan

def Lexis.Word.form : Lexis.Word → Scan.Form
  | .identifier _ _ _ _ => .identifier
  | .number _ _ _ _ => .number
  | .quoted _ items => .quoted (items.map Item.denoted)
  | .mark character _ => .mark character

theorem Lexis.Word.token_of_lexeme (word : Lexis.Word) (after : List Char) (start : Position) :
    Scan.Lexeme.token ⟨word.form, word.written, after⟩ start =
      word.token ⟨start, start.after word.written⟩ := by
  cases word <;> rfl

namespace Scan

theorem literal_sound {quote : Quote} {rest : List Char} {found : Lexeme}
    (read : literal quote.character rest = .ok found) :
    ∃ items, found = ⟨(Lexis.Word.quoted quote items).form,
      (Lexis.Word.quoted quote items).written, found.rest⟩ := by
  -- What stands between the quotes is found first, then reading it again gives its value.
  obtain ⟨items, after, text⟩ : ∃ (items : List (Item quote.character)) (after : List Char),
      rest = (Lexis.Word.quoted quote items).tail ++ after := by
    unfold literal at read
    split at read
    · split at read <;> cases read
    · next inner contentRead =>
      obtain ⟨items, written⟩ := content_sound contentRead
      refine ⟨items, inner.rest, ?_⟩
      rw [Word.tail, written]
      exact content_written contentRead
  rw [text, literal_complete] at read
  cases read
  exact ⟨items, rfl⟩

theorem lexeme_sound {first : Char} {rest : List Char} {found : Lexeme}
    (read : lexeme first rest = .ok found) :
    (∃ delimiter : Delimiter, first = delimiter.closing ∧
      found = ⟨.closing delimiter, [first], rest⟩) ∨
    (∃ delimiter : Delimiter, first = delimiter.opening ∧
      found = ⟨.opening delimiter, [first], rest⟩) ∨
    ∃ word : Lexis.Word, found = ⟨word.form, word.written, found.rest⟩ := by
  unfold lexeme at read
  split at read
  · next _ _ delimiter closes =>
    cases read
    exact .inl ⟨delimiter, (Delimiter.closing_of_ofClosing? closes).symm, rfl⟩
  · next _ _ delimiter _ opens =>
    cases read
    exact .inr (.inl ⟨delimiter, (Delimiter.opening_of_ofOpening? opens).symm, rfl⟩)
  · refine .inr (.inr ?_)
    split at read
    · next isQuote =>
      obtain ⟨quote, rfl⟩ : ∃ quote : Quote, first = quote.character := by
        rcases Bool.or_eq_true _ _ ▸ isQuote with isDouble | isSingle
        · exact ⟨.double, eq_of_beq isDouble⟩
        · exact ⟨.single, eq_of_beq isSingle⟩
      obtain ⟨items, same⟩ := literal_sound read
      exact ⟨.quoted quote items, same⟩
    · split at read
      · next digit =>
        cases read
        exact ⟨.number first _ digit (splitNumber_continues rest), rfl⟩
      · split at read
        · next letter =>
          cases read
          exact ⟨.identifier first _ letter fun _ member => List.mem_takeWhile_imp member, rfl⟩
        · split at read
          · next legal =>
            cases read
            exact ⟨.mark first legal, rfl⟩
          · split at read <;> cases read

theorem takeWhile_of_longest {first : Char} {begins : beginsIdentifier first = true}
    {continues : ∀ character ∈ tail, continuesIdentifier character = true}
    (longest : (Lexis.Word.identifier first tail begins continues).LongestBefore after) :
    after.takeWhile continuesIdentifier = [] := by
  have longer := longest
    (.identifier first (tail ++ after.takeWhile continuesIdentifier) begins (by
      intro character member
      rcases List.mem_append.mp member with own | further
      · exact continues character own
      · exact List.mem_takeWhile_imp further))
    ⟨after.dropWhile continuesIdentifier, by simp [Word.written, Word.first, Word.tail]⟩
  simpa [Word.written, Word.tail] using longer

theorem splitNumber_of_longest {first : Char}
    {begins : first.isDigit = true} {continues : ContinuesNumber tail}
    (longest : (Lexis.Word.number first tail begins continues).LongestBefore after) :
    (splitNumber after).1 = [] := by
  have split := splitNumber_append_of_continues continues after
  have longer := longest
    (.number first (tail ++ (splitNumber after).1) begins (by
      have both := splitNumber_continues (tail ++ after)
      rwa [split] at both))
    ⟨(splitNumber after).2, by
      simp [Word.written, Word.first, Word.tail, splitNumber_append]⟩
  simpa [Word.written, Word.tail] using longer

/-- The longest word in front of a text is the lexeme that is read. -/
theorem lexeme_complete {word : Lexis.Word} (longest : word.LongestBefore after) :
    lexeme word.first (word.tail ++ after) = .ok ⟨word.form, word.written, after⟩ := by
  cases word with
  | quoted quote items =>
    rw [Word.first, lexeme_quote, literal_complete]
    rfl
  | mark character legal =>
    rw [Word.first, Word.tail, lexeme_mark legal]
    rfl
  | identifier first tail begins continues =>
    have noMore := takeWhile_of_longest longest
    have allAfter : after.dropWhile continuesIdentifier = after := by
      have both := List.takeWhile_append_dropWhile (p := continuesIdentifier) (l := after)
      rwa [noMore, List.nil_append] at both
    rw [Word.first, Word.tail, lexeme_letter begins, List.takeWhile_append_of_pos continues,
      List.dropWhile_append_of_pos continues, noMore, allAfter, List.append_nil]
    rfl
  | number first tail begins continues =>
    have split := splitNumber_append_of_continues continues after
    have noMore := splitNumber_of_longest longest
    have allAfter : (splitNumber after).2 = after := by
      have both := splitNumber_append after
      rwa [noMore, List.nil_append] at both
    rw [Word.first, Word.tail, lexeme_digit begins, split, noMore, allAfter, List.append_nil]
    rfl

end Scan

end TypedMarkup
