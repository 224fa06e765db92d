import TypedMarkup.Number.Reading
import TypedMarkup.Text.Lines
import TypedMarkup.Token.Character

/-!
Contract: the lexical units of host code.

Owns: `Lexeme` and `lexemes?`, which cuts host code into units or fails. Host code stands in
brackets, so line ends count as blanks. Units are: words, numbers, quoted texts and symbols.
-/

namespace TypedMarkup.Host

inductive Lexeme where
  | word (name : String)
  | int (value : Int)
  | real (value : Binary64)
  | text (value : String)
  | symbol (written : String)
deriving DecidableEq, Repr

namespace Lexeme

/-- The symbols, longer ones before those that begin them. -/
def symbols : List String := [
  "**=", "//=", ">>=", "<<=", "...", "!=", "==", "<=", ">=", "->", ":=", "+=", "-=", "*=", "/=",
  "%=", "@=", "&=", "|=", "^=", "**", "//", "<<", ">>", "+", "-", "*", "/", "%", "@", "&", "|",
  "^", "~", "<", ">", "(", ")", "[", "]", "\x7b", "\x7d", ",", ":", ".", ";", "="]

def wordsBehindNumber : List String := ["and", "else", "for", "if", "in", "is", "or", "not"]

/-- Digits of a base with single underscores between them: the digits read and what follows. -/
def digitRun (isBaseDigit : Char → Bool) : List Char → List Char × List Char
  | [] => ([], [])
  | '_' :: next :: rest =>
    if isBaseDigit next then
      let run := digitRun isBaseDigit rest
      (next :: run.1, run.2)
    else ([], '_' :: next :: rest)
  | character :: rest =>
    if isBaseDigit character then
      let run := digitRun isBaseDigit rest
      (character :: run.1, run.2)
    else ([], character :: rest)

def numberOf (base : Nat) (digits : List Char) : Int :=
  digits.foldl (fun number digit => (base * number + hexValue digit : Int)) 0

def basedInteger? (base : Nat) (isBaseDigit : Char → Bool) (rest : List Char) :
    Option (Lexeme × List Char) :=
  let start := match rest with
    | '_' :: behind => behind
    | other => other
  if (start.head?.map isBaseDigit).getD false then
    let run := digitRun isBaseDigit start
    some (.int (numberOf base run.1), run.2)
  else none

def exponentPart (text : List Char) : List Char × List Char :=
  match text with
  | mark :: rest =>
    if mark == 'e' || mark == 'E' then
      let (sign, digits) := match rest with
        | '+' :: behind => (['+'], behind)
        | '-' :: behind => (['-'], behind)
        | other => ([], other)
      let run := digitRun Char.isDigit digits
      if (digits.head?.map Char.isDigit).getD false then
        ('e' :: sign ++ run.1, run.2)
      else ([], text)
    else ([], text)
  | [] => ([], [])

/-- Reads a decimal number. A whole number other than zero does not begin with a zero, and a whole
number has no more digits than the limit. -/
def decimal? (text : List Char) : Option (Lexeme × List Char) :=
  let whole := if (text.head?.map Char.isDigit).getD false then digitRun Char.isDigit text
    else ([], text)
  let (fraction, behind) := match whole.2 with
    | '.' :: rest =>
      let run := if (rest.head?.map Char.isDigit).getD false then digitRun Char.isDigit rest
        else ([], rest)
      (some run.1, run.2)
    | other => (none, other)
  let (exponent, rest) := exponentPart behind
  match fraction, exponent with
  | none, [] =>
    if whole.1.head? == some '0' && whole.1.any (· != '0') then none
    else if Number.digitLimit < whole.1.length then none
    else some (.int (numberOf 10 whole.1), rest)
  | fraction, exponent =>
    let written := whole.1 ++ '.' :: fraction.getD [] ++ exponent
    (Number.readReal? (String.ofList written)).map fun value => (.real value, rest)

def number? (text : List Char) : Option (Lexeme × List Char) :=
  match text with
  | '0' :: 'x' :: rest => basedInteger? 16 isHexDigit rest
  | '0' :: 'X' :: rest => basedInteger? 16 isHexDigit rest
  | '0' :: 'o' :: rest => basedInteger? 8 (fun digit => '0' ≤ digit && digit ≤ '7') rest
  | '0' :: 'O' :: rest => basedInteger? 8 (fun digit => '0' ≤ digit && digit ≤ '7') rest
  | '0' :: 'b' :: rest => basedInteger? 2 (fun digit => digit == '0' || digit == '1') rest
  | '0' :: 'B' :: rest => basedInteger? 2 (fun digit => digit == '0' || digit == '1') rest
  | _ => decimal? text

/-- Whether a number may end before the given text. -/
def endsNumber (rest : List Char) : Bool :=
  match rest with
  | [] => true
  | next :: _ =>
    !continuesIdentifier next ||
      wordsBehindNumber.any fun word => word.toList.isPrefixOf rest

def simpleEscape? : Char → Option Char
  | '\\' => some '\\'
  | '\'' => some '\''
  | '"' => some '"'
  | 'a' => some '\x07'
  | 'b' => some '\x08'
  | 'f' => some '\x0c'
  | 'n' => some '\n'
  | 'r' => some '\r'
  | 't' => some '\t'
  | 'v' => some '\x0b'
  | _ => none

def isOctal (character : Char) : Bool := '0' ≤ character && character ≤ '7'

/-- The character of a code point written by a fixed number of hexadecimal digits. -/
def codePoint? (width : Nat) (text : List Char) : Option (Char × List Char) :=
  let digits := text.take width
  if digits.length == width && digits.all isHexDigit && (hexNumber digits).isValidChar then
    some (Char.ofNat (hexNumber digits), text.drop width)
  else none

/-- What an escape stands for, from the character behind the backslash on. An unknown escape
stands for itself. -/
def escape? : List Char → Option (List Char × List Char)
  | [] => none
  | '\n' :: rest => some ([], rest)
  | 'x' :: rest => (codePoint? 2 rest).map fun found => ([found.1], found.2)
  | 'u' :: rest => (codePoint? 4 rest).map fun found => ([found.1], found.2)
  | 'U' :: rest => (codePoint? 8 rest).map fun found => ([found.1], found.2)
  | character :: rest =>
    match simpleEscape? character with
    | some value => some ([value], rest)
    | none =>
      if isOctal character then
        let digits := character :: (rest.take 2).takeWhile isOctal
        some ([Char.ofNat (hexNumberOctal digits)], rest.drop (digits.length - 1))
      else some (['\\', character], rest)
where
  hexNumberOctal (digits : List Char) : Nat :=
    digits.foldl (fun number digit => 8 * number + hexValue digit) 0

/-- Reads the rest of a quoted text up to its closing mark, which is one quote or three. -/
def quotedRest? (quote : Char) (triple raw : Bool) :
    (fuel : Nat) → List Char → Option (List Char × List Char)
  | 0, _ => none
  | _, [] => none
  | fuel + 1, '\\' :: rest =>
    if raw then
      match rest with
      | [] => none
      | next :: behind =>
        (quotedRest? quote triple raw fuel behind).map fun tail =>
          ('\\' :: next :: tail.1, tail.2)
    else
      (escape? rest).bind fun found =>
        (quotedRest? quote triple raw fuel found.2).map fun tail => (found.1 ++ tail.1, tail.2)
  | fuel + 1, character :: rest =>
    if triple then
      if [quote, quote, quote].isPrefixOf (character :: rest) then some ([], rest.drop 2)
      else
        (quotedRest? quote triple raw fuel rest).map fun tail => (character :: tail.1, tail.2)
    else if character == quote then some ([], rest)
    else if character == '\n' then none
    else (quotedRest? quote triple raw fuel rest).map fun tail => (character :: tail.1, tail.2)

def quoted? (raw : Bool) : List Char → Option (Lexeme × List Char)
  | [] => none
  | quote :: rest =>
    let triple := [quote, quote].isPrefixOf rest
    let start := if triple then rest.drop 2 else rest
    (quotedRest? quote triple raw (start.length + 1) start).map fun found =>
      (.text (String.ofList found.1), found.2)

/-- Reads one unit at the start of a text that begins with no blank. -/
def unit? (text : List Char) : Option (Lexeme × List Char) :=
  match text with
  | [] => none
  | first :: rest =>
    if first == '\'' || first == '"' then quoted? false text
    else if first.isDigit || (first == '.' && (rest.head?.map Char.isDigit).getD false) then
      (number? text).bind fun found => if endsNumber found.2 then some found else none
    else if beginsIdentifier first then
      let name := text.takeWhile continuesIdentifier
      let behind := text.dropWhile continuesIdentifier
      match behind with
      | '\'' :: _ => marked? name behind
      | '"' :: _ => marked? name behind
      | _ => some (.word (String.ofList name), behind)
    else
      (symbols.find? fun symbol => symbol.toList.isPrefixOf text).map fun symbol =>
        (.symbol symbol, text.drop symbol.length)
where
  /-- Reads a quoted text behind a word that marks how it is read. Any other word ends before the
  quote. -/
  marked? (name behind : List Char) : Option (Lexeme × List Char) :=
    let mark := String.ofList (name.map Char.toLower)
    if mark == "r" then quoted? true behind
    else if mark == "u" then quoted? false behind
    else if ["b", "f", "br", "rb", "fr", "rf"].contains mark then none
    else some (.word (String.ofList name), behind)

end Lexeme

def lexemesFrom? : (fuel : Nat) → List Char → Option (List Lexeme)
  | 0, _ => none
  | _, [] => some []
  | fuel + 1, character :: rest =>
    if character == '#' then lexemesFrom? fuel (rest.dropWhile (· != '\n'))
    else if character == ' ' || character == '\t' || character == '\n' || character == '\x0c' then
      lexemesFrom? fuel rest
    else if character == '\\' then
      match rest with
      | '\n' :: behind => lexemesFrom? fuel behind
      | _ => none
    else
      (Lexeme.unit? (character :: rest)).bind fun found =>
        (lexemesFrom? fuel found.2).map (found.1 :: ·)

/-- The lexical units of host code. Code that holds a NUL has none. -/
def lexemes? (code : String) : Option (List Lexeme) :=
  let text := Text.unifyLineEndsOf code.toList
  if text.contains '\x00' then none else lexemesFrom? (text.length + 1) text

end TypedMarkup.Host
