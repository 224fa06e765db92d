import TypedMarkup.Token.Basic

/-!
Contract: the flat token sequence of a source text.

Owns: the lexemes (identifiers, numbers, quoted literals with their escapes, marks and brackets),
what may stand between them, and `scan`, which reads a text to its end or to its first lexical
fault. The tokens before a fault are kept, because a bracket that does not match before the fault
is reported in its place.

Does not own: the matching of brackets.
-/

namespace TypedMarkup

inductive LexicalCause where
  | unclosed (delimiter : Delimiter)
  | unexpectedClosing (delimiter : Delimiter)
  | mismatchedClosing (expected found : Delimiter)
  | nul
  | invalidCharacter (character : Char)
  | unterminatedLiteral
  | escapeAtEnd
  | shortHexadecimal (digits : Nat)
  | missingBrace
  | malformedCodePoint
  | codePointOutOfRange (code : Nat)
  | unknownEscape (character : Char)
deriving DecidableEq, Repr

structure LexicalFault where
  cause : LexicalCause
  position : Position
deriving DecidableEq, Repr

namespace Scan

/-- Reads over blanks and comments. A comment runs up to the next line feed. -/
def skipGap (inComment : Bool) (position : Position) : List Char → Position × List Char
  | [] => (position, [])
  | character :: rest =>
    if inComment then skipGap (character != '\n') (position.next character) rest
    else if isGap character then skipGap false (position.next character) rest
    else if character == '#' then skipGap true (position.next character) rest
    else (position, character :: rest)

/-- Splits off the characters of a number: identifier characters, and points before a digit. -/
def splitNumber : List Char → List Char × List Char
  | [] => ([], [])
  | character :: rest =>
    if continuesIdentifier character ||
        (character == '.' && (rest.head?.map Char.isDigit).getD false) then
      let split := splitNumber rest
      (character :: split.1, split.2)
    else ([], character :: rest)

def simpleEscape? : Char → Option Char
  | '\\' => some '\\'
  | '"' => some '"'
  | '\'' => some '\''
  | 'n' => some '\n'
  | 'r' => some '\r'
  | 't' => some '\t'
  | '0' => some '\x00'
  | _ => none

/-- A piece of a quoted literal: the character it denotes, the piece as written and what follows. -/
structure Piece where
  denoted : Char
  written : List Char
  rest : List Char

def hexEscape : List Char → Except LexicalCause Piece
  | first :: second :: rest =>
    if !isHexDigit first then .error (.shortHexadecimal 0)
    else if !isHexDigit second then .error (.shortHexadecimal 1)
    else .ok ⟨Char.ofNat (hexNumber [first, second]), [first, second], rest⟩
  | [first] => .error (.shortHexadecimal (if isHexDigit first then 1 else 0))
  | [] => .error (.shortHexadecimal 0)

/-- One to six hexadecimal digits between braces. -/
def codePointEscape : List Char → Except LexicalCause Piece
  | '\x7b' :: rest =>
    let digits := rest.takeWhile isHexDigit
    match rest.dropWhile isHexDigit with
    | '\x7d' :: after =>
      if digits.isEmpty || 6 < digits.length then .error .malformedCodePoint
      else if 0x10FFFF < hexNumber digits then
        .error (.codePointOutOfRange (hexNumber digits))
      else .ok ⟨Char.ofNat (hexNumber digits), '\x7b' :: digits ++ ['\x7d'], after⟩
    | _ => .error .malformedCodePoint
  | _ => .error .missingBrace

def escape : List Char → Except LexicalCause Piece
  | [] => .error .escapeAtEnd
  | character :: rest =>
    match simpleEscape? character with
    | some denoted => .ok ⟨denoted, [character], rest⟩
    | none =>
      if character == 'x' then
        (hexEscape rest).map fun piece => { piece with written := character :: piece.written }
      else if character == 'u' then
        (codePointEscape rest).map fun piece =>
          { piece with written := character :: piece.written }
      else .error (.unknownEscape character)

theorem hexEscape_written {text : List Char} {piece : Piece}
    (read : hexEscape text = .ok piece) : text = piece.written ++ piece.rest := by
  unfold hexEscape at read
  split at read
  · split at read
    · cases read
    · split at read
      · cases read
      · cases read
        rfl
  · cases read
  · cases read

theorem codePointEscape_written {text : List Char} {piece : Piece}
    (read : codePointEscape text = .ok piece) : text = piece.written ++ piece.rest := by
  unfold codePointEscape at read
  split at read
  · rename_i rest
    split at read
    · rename_i after dropped
      dsimp only at read
      split at read
      · cases read
      · split at read
        · cases read
        · cases read
          have split := List.takeWhile_append_dropWhile (p := isHexDigit) (l := rest)
          simp only [List.cons_append, List.append_assoc, List.nil_append]
          rw [← dropped, split]
    · cases read
  · cases read

theorem escape_written {text : List Char} {piece : Piece}
    (read : escape text = .ok piece) : text = piece.written ++ piece.rest := by
  unfold escape at read
  split at read
  · cases read
  · rename_i character rest
    split at read
    · cases read
      rfl
    · split at read
      · cases reads : hexEscape rest with
        | error cause => simp [reads, Except.map] at read
        | ok inner =>
          simp only [reads, Except.map, Except.ok.injEq] at read
          subst read
          simp [hexEscape_written reads]
      · split at read
        · cases reads : codePointEscape rest with
          | error cause => simp [reads, Except.map] at read
          | ok inner =>
            simp only [reads, Except.map, Except.ok.injEq] at read
            subst read
            simp [codePointEscape_written reads]
        · cases read

/-- A fault inside a lexeme, with the part of the lexeme read before it. -/
structure Fault where
  cause : LexicalCause
  before : List Char

/-- The content of a quoted literal up to its closing mark. -/
structure Content where
  denoted : List Char
  written : List Char
  rest : List Char

/-- The same fault, found after more characters. -/
def Fault.behind (fault : Fault) (read : List Char) : Fault :=
  { fault with before := read ++ fault.before }

/-- Reads a quoted literal from behind its opening mark. A fault of an escape stands at its
backslash. -/
def content (quote : Char) (text : List Char) : Except Fault Content :=
  match text with
  | [] => .error ⟨.unterminatedLiteral, []⟩
  | character :: rest =>
    if character == quote then .ok ⟨[], [character], rest⟩
    else if character == '\\' then
      match _read : escape rest with
      | .error cause => .error ⟨cause, []⟩
      | .ok piece =>
        match content quote piece.rest with
        | .error fault => .error (fault.behind (character :: piece.written))
        | .ok more =>
          .ok ⟨piece.denoted :: more.denoted, character :: piece.written ++ more.written,
            more.rest⟩
    else
      match content quote rest with
      | .error fault => .error (fault.behind [character])
      | .ok more => .ok ⟨character :: more.denoted, character :: more.written, more.rest⟩
termination_by text.length
decreasing_by
  · have written := congrArg List.length (escape_written _read)
    simp only [List.length_append] at written
    simp only [List.length_cons]
    omega
  · simp

/-- The content of a quoted literal is what was written of it, followed by the rest. -/
theorem content_written {quote : Char} {text : List Char} {found : Content}
    (read : content quote text = .ok found) : text = found.written ++ found.rest := by
  fun_induction content quote text generalizing found with
  | case1 => cases read
  | case2 => cases read; rfl
  | case3 => cases read
  | case4 => cases read
  | case5 character rest _ _ piece escaped more inner ih =>
    cases read
    have pieces := escape_written escaped
    have tail := ih inner
    simp only [List.cons_append, List.append_assoc, List.cons.injEq, true_and]
    rw [← tail]
    exact pieces
  | case6 => cases read
  | case7 character rest _ _ more inner ih =>
    cases read
    have tail := ih inner
    simp only [List.cons_append, List.cons.injEq, true_and]
    exact tail

inductive Form where
  | identifier
  | number
  | quoted (denoted : List Char)
  | mark (character : Char)
  | opening (delimiter : Delimiter)
  | closing (delimiter : Delimiter)

/-- A lexeme: what it is, its characters and the characters after it. -/
structure Lexeme where
  form : Form
  written : List Char
  rest : List Char

/-- Reads a quoted literal. One without end is a fault at its opening mark. -/
def literal (quote : Char) (rest : List Char) : Except Fault Lexeme :=
  match content quote rest with
  | .error fault =>
    if fault.cause = .unterminatedLiteral then .error ⟨fault.cause, []⟩
    else .error (fault.behind [quote])
  | .ok found => .ok ⟨.quoted found.denoted, quote :: found.written, found.rest⟩

def lexeme (first : Char) (rest : List Char) : Except Fault Lexeme :=
  match Delimiter.ofClosing? first, Delimiter.ofOpening? first with
  | some delimiter, _ => .ok ⟨.closing delimiter, [first], rest⟩
  | none, some delimiter => .ok ⟨.opening delimiter, [first], rest⟩
  | none, none =>
    if first == '"' || first == '\'' then literal first rest
    else if first.isDigit then
      let split := splitNumber rest
      .ok ⟨.number, first :: split.1, split.2⟩
    else if beginsIdentifier first then
      .ok ⟨.identifier, first :: rest.takeWhile continuesIdentifier,
        rest.dropWhile continuesIdentifier⟩
    else if isMark first then .ok ⟨.mark first, [first], rest⟩
    else if first == '\x00' then .error ⟨.nul, []⟩
    else .error ⟨.invalidCharacter first, []⟩

theorem splitNumber_append (text : List Char) :
    (splitNumber text).1 ++ (splitNumber text).2 = text := by
  induction text with
  | nil => rfl
  | cons character rest ih =>
    unfold splitNumber
    split
    · simp [ih]
    · rfl

/-- A lexeme and the characters after it make up what was read. -/
theorem lexeme_written {first : Char} {rest : List Char} {found : Lexeme}
    (read : lexeme first rest = .ok found) : first :: rest = found.written ++ found.rest := by
  unfold lexeme at read
  split at read
  · cases read
    rfl
  · cases read
    rfl
  · split at read
    · unfold literal at read
      split at read
      · split at read <;> cases read
      · rename_i inner
        cases read
        simp [content_written inner]
    · split at read
      · cases read
        simp [splitNumber_append]
      · split at read
        · cases read
          simp
        · split at read
          · cases read
            rfl
          · split at read <;> cases read

theorem lexeme_written_ne_nil {first : Char} {rest : List Char} {found : Lexeme}
    (read : lexeme first rest = .ok found) : found.written ≠ [] := by
  unfold lexeme at read
  split at read
  · cases read
    simp
  · cases read
    simp
  · split at read
    · unfold literal at read
      split at read
      · split at read <;> cases read
      · cases read
        simp
    · split at read
      · cases read
        simp
      · split at read
        · cases read
          simp
        · split at read
          · cases read
            simp
          · split at read <;> cases read

theorem lexeme_rest_length {first : Char} {rest : List Char} {found : Lexeme}
    (read : lexeme first rest = .ok found) : found.rest.length ≤ rest.length := by
  have nonempty := List.length_pos_iff.mpr (lexeme_written_ne_nil read)
  have lengths := congrArg List.length (lexeme_written read)
  simp only [List.length_cons, List.length_append] at lengths
  omega

theorem skipGap_length (inComment : Bool) (position : Position) (text : List Char) :
    (skipGap inComment position text).2.length ≤ text.length := by
  induction text generalizing inComment position with
  | nil => simp [skipGap]
  | cons character rest ih =>
    unfold skipGap
    split
    · exact Nat.le_succ_of_le (ih _ _)
    · split
      · exact Nat.le_succ_of_le (ih _ _)
      · split
        · exact Nat.le_succ_of_le (ih _ _)
        · exact Nat.le_refl _

def Lexeme.token (lexeme : Lexeme) (start : Position) : Token :=
  let span : Span := ⟨start, start.after lexeme.written⟩
  let written := String.ofList lexeme.written
  match lexeme.form with
  | .identifier => .identifier written span
  | .number => .number written span
  | .quoted denoted => .quoted (String.ofList denoted) written span
  | .mark character => .mark character span
  | .opening delimiter => .opening delimiter span
  | .closing delimiter => .closing delimiter span

end Scan

/-- The tokens read from a text, up to its end or to its first lexical fault. -/
structure Scanned where
  tokens : List Token
  stop : Position
  fault : Option LexicalFault

def scanFrom (position : Position) (text : List Char) : Scanned :=
  match _gap : Scan.skipGap false position text with
  | (start, []) => ⟨[], start, none⟩
  | (start, first :: rest) =>
    match _read : Scan.lexeme first rest with
    | .error fault => ⟨[], start, some ⟨fault.cause, start.after fault.before⟩⟩
    | .ok lexeme =>
      let more := scanFrom (start.after lexeme.written) lexeme.rest
      { more with tokens := lexeme.token start :: more.tokens }
termination_by text.length
decreasing_by
  have skipped := Scan.skipGap_length false position text
  have shorter := Scan.lexeme_rest_length _read
  rw [_gap, List.length_cons] at skipped
  omega

def scan (text : List Char) : Scanned :=
  scanFrom .origin text

end TypedMarkup
