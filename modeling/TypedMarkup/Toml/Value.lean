import TypedMarkup.Host.Lexeme
import TypedMarkup.Table
import TypedMarkup.Toml.Basic

/-!
Contract: keys and values of settings files.

Owns: `readKey` and `readSetting`. Every reader takes the rest of a text, and hands back what it
read with the rest behind it.

An inline table or an array is complete: it cannot be extended from outside, so a later key of the
same inline table must not lead into it.
-/

namespace TypedMarkup.Toml

def fail {α : Type} (problem : Problem) (rest : List Char) : Except Fault (α × List Char) :=
  .error ⟨problem, rest⟩

def isSpace (character : Char) : Bool := character == ' ' || character == '\t'

def skipSpaces (text : List Char) : List Char := text.dropWhile isSpace

/-- Whether a character may stand in a key without quotes. -/
def isBare (character : Char) : Bool :=
  character.isAlphanum || character == '-' || character == '_'

/-- Whether a character must not stand in a text on one line. -/
def isControl (character : Char) : Bool :=
  (character.toNat < 32 || character.toNat == 127) && character != '\t'

/-- Whether a character must not stand in a text on several lines. -/
def isControlInLines (character : Char) : Bool := isControl character && character != '\n'

/-- A text up to the first place where another text begins, and the text from there on. -/
def splitBefore? (stop : List Char) : List Char → Option (List Char × List Char)
  | [] => if stop.isEmpty then some ([], []) else none
  | character :: rest =>
    if stop.isPrefixOf (character :: rest) then some ([], character :: rest)
    else (splitBefore? stop rest).map fun split => (character :: split.1, split.2)

def firstWhere (test : Char → Bool) (text : List Char) : List Char :=
  text.dropWhile fun character => !test character

/-- Refuses a forbidden character. `text` begins with `before`. -/
def refuse (test : Char → Bool) (before text : List Char) : Except Fault Unit :=
  match before.find? test with
  | some character => .error ⟨.found character, firstWhere test text⟩
  | none => .ok ()

/-- The text behind a comment that begins here, if one does. -/
def skipComment : List Char → Except Fault (List Char)
  | '#' :: rest => do
    let comment := rest.takeWhile (· != '\n')
    refuse isControl comment rest
    return rest.drop comment.length
  | text => .ok text

/-- Reads the inside of a text in single quotes up to its closing quotes. -/
def readUntil (stop : String) (forbidden : Char → Bool) (text : List Char) :
    Except Fault (String × List Char) :=
  match splitBefore? stop.toList text with
  | none => fail (.expected stop) []
  | some (inside, behind) => do
    refuse forbidden inside text
    return (String.ofList inside, behind.drop stop.length)

/-- A character given by a number of hexadecimal digits. -/
def readScalar (width : Nat) (text : List Char) : Except Fault (List Char × List Char) :=
  let digits := text.take width
  if digits.length != width || !digits.all isHexDigit then fail .hexadecimal text
  else
    let code := hexNumber digits
    if code < 0xD800 || (0xDFFF < code && code < 0x110000) then
      .ok ([Char.ofNat code], text.drop width)
    else fail .scalarValue (text.drop width)

/-- What a letter behind a backslash stands for. -/
def escapedCharacter? : Char → Option Char
  | 'b' => some '\x08'
  | 't' => some '\t'
  | 'n' => some '\n'
  | 'f' => some '\x0c'
  | 'r' => some '\r'
  | '"' => some '"'
  | '\\' => some '\\'
  | _ => none

/-- Reads what stands behind a backslash. On several lines, a backslash at the end of a line takes
the line end and the blanks behind it away. -/
def readEscape (lines : Bool) : List Char → Except Fault (List Char × List Char)
  | [] => fail .escape []
  | 'u' :: rest => readScalar 4 rest
  | 'U' :: rest => readScalar 8 rest
  | character :: rest =>
    if lines && character == '\n' then
      .ok ([], rest.dropWhile fun next => isSpace next || next == '\n')
    else if lines && isSpace character then
      match skipSpaces rest with
      | [] => .ok ([], [])
      | '\n' :: behind => .ok ([], behind.dropWhile fun next => isSpace next || next == '\n')
      | behind => fail .escape behind
    else
      match escapedCharacter? character with
      | some meant => .ok ([meant], rest)
      | none => fail .escape rest

/-- Reads the inside of a text in double quotes up to its closing quotes. -/
def readBasic (lines : Bool) : (fuel : Nat) → List Char → Except Fault (List Char × List Char)
  | 0, text => fail .unterminated text
  | _ + 1, [] => fail .unterminated []
  | fuel + 1, '"' :: rest =>
    if !lines then .ok ([], rest)
    else
      match rest with
      | '"' :: '"' :: behind => .ok ([], behind)
      | _ => do
        let (more, behind) ← readBasic lines fuel rest
        return ('"' :: more, behind)
  | fuel + 1, '\\' :: rest => do
    let (meant, next) ← readEscape lines rest
    let (more, behind) ← readBasic lines fuel next
    return (meant ++ more, behind)
  | fuel + 1, character :: rest =>
    if (if lines then isControlInLines character else isControl character) then
      fail (.illegal character) (character :: rest)
    else do
      let (more, behind) ← readBasic lines fuel rest
      return (character :: more, behind)

def readBasicText (lines : Bool) (text : List Char) : Except Fault (String × List Char) := do
  let (inside, behind) ← readBasic lines (text.length + 1) text
  return (String.ofList inside, behind)

/-- A text on several lines may end with one or two quotes of its own kind. -/
def withQuotes (quote : Char) (inside : String) (text : List Char) : String × List Char :=
  let own := (text.take 2).takeWhile (· == quote)
  (inside ++ String.ofList own, text.drop own.length)

def skipLineFeed : List Char → List Char
  | '\n' :: rest => rest
  | text => text

def readText : List Char → Except Fault (String × List Char)
  | '"' :: '"' :: '"' :: rest => do
    let (inside, behind) ← readBasicText true (skipLineFeed rest)
    return withQuotes '"' inside behind
  | '"' :: rest => readBasicText false rest
  | '\'' :: '\'' :: '\'' :: rest => do
    let (inside, behind) ← readUntil "'''" isControlInLines (skipLineFeed rest)
    return withQuotes '\'' inside behind
  | '\'' :: rest => readUntil "'" isControl rest
  | text => fail .value text

def readKeyPart : List Char → Except Fault (String × List Char)
  | '"' :: rest => readBasicText false rest
  | '\'' :: rest => readUntil "'" isControl rest
  | text =>
    let name := text.takeWhile isBare
    if name.isEmpty then fail .keyStart text
    else .ok (String.ofList name, text.drop name.length)

/-- Reads the further parts of a key, which dots divide. -/
def readKeyRest : (fuel : Nat) → List Char → Except Fault (List String × List Char)
  | 0, text => .ok ([], text)
  | fuel + 1, text =>
    match skipSpaces text with
    | '.' :: rest => do
      let (part, behind) ← readKeyPart (skipSpaces rest)
      let (more, last) ← readKeyRest fuel behind
      return (part :: more, last)
    | behind => .ok ([], behind)

def readKey (text : List Char) : Except Fault (List String × List Char) := do
  let (part, behind) ← readKeyPart text
  let (more, last) ← readKeyRest (behind.length + 1) behind
  return (part :: more, last)

/-- The digits of a run in which single underscores divide digits. The first character must be a
digit. -/
def digitRun (isDigit : Char → Bool) (text : List Char) : Nat :=
  match text with
  | [] => 0
  | first :: rest => if isDigit first then 1 + more isDigit rest else 0
where
  /-- The length of what continues a run of digits. -/
  more (isDigit : Char → Bool) : List Char → Nat
    | '_' :: digit :: rest => if isDigit digit then 2 + more isDigit rest else 0
    | digit :: rest => if isDigit digit then 1 + more isDigit rest else 0
    | [] => 0

def wholeLength : List Char → Nat
  | '0' :: _ => 1
  | text => digitRun Char.isDigit text

def fractionLength : List Char → Nat
  | '.' :: rest =>
    let digits := digitRun Char.isDigit rest
    if digits = 0 then 0 else digits + 1
  | _ => 0

def exponentLength : List Char → Nat
  | mark :: rest =>
    if mark == 'e' || mark == 'E' then
      let sign := match rest with
        | first :: _ => if first == '+' || first == '-' then 1 else 0
        | [] => 0
      let digits := digitRun Char.isDigit (rest.drop sign)
      if digits = 0 then 0 else 1 + sign + digits
    else 0
  | [] => 0

def readBased? : List Char → Option (Setting × List Char)
  | '0' :: mark :: rest => do
    let (base, isDigit) ← (match mark with
      | 'x' => some (16, isHexDigit)
      | 'o' => some (8, Host.Lexeme.isOctal)
      | 'b' => some (2, fun character => character == '0' || character == '1')
      | _ => none : Option (Nat × (Char → Bool)))
    let length := digitRun isDigit rest
    if length = 0 then none
    else
      let digits := (rest.take length).filter (· != '_')
      some (.integer (Host.Lexeme.numberOf base digits), rest.drop length)
  | _ => none

def readDecimal? (text : List Char) : Option (Except Fault (Setting × List Char)) :=
  let sign := match text with
    | first :: _ => if first == '+' || first == '-' then 1 else 0
    | [] => 0
  let whole := wholeLength (text.drop sign)
  if whole = 0 then none
  else
    let fraction := fractionLength (text.drop (sign + whole))
    let exponent := exponentLength (text.drop (sign + whole + fraction))
    let length := sign + whole + fraction + exponent
    let written := String.ofList (text.take length)
    let behind := text.drop length
    if fraction + exponent = 0 then
      match Number.readInteger written with
      | .value number => some (.ok (.integer number, behind))
      | .tooLong count => some (fail (.digits count) text)
      | .malformed => none
    else (Number.readReal? written).map fun number => .ok (.real number, behind)

def specialNumbers : List String := ["inf", "nan", "-inf", "+inf", "-nan", "+nan"]

/-- Reads a value that is neither a text nor a container. -/
def readPlain (text : List Char) : Except Fault (Setting × List Char) :=
  if "true".toList.isPrefixOf text then .ok (.bool true, text.drop 4)
  else if "false".toList.isPrefixOf text then .ok (.bool false, text.drop 5)
  else
    match readBased? text with
    | some found => .ok found
    | none =>
      match readDecimal? text with
      | some found => found
      | none =>
        match specialNumbers.find? fun word => word.toList.isPrefixOf text with
        | some word =>
          .ok (.real ((Number.readReal? word).getD .nan), text.drop word.length)
        | none => fail .value text

/-- The text behind blanks, line ends and comments. -/
def skipLayout : (fuel : Nat) → List Char → Except Fault (List Char)
  | 0, text => .ok text
  | fuel + 1, text => do
    let behind := text.dropWhile fun character => isSpace character || character == '\n'
    let next ← skipComment behind
    if next.length = text.length then return next else skipLayout fuel next

/-- The text behind blanks, line ends and comments. -/
def skipAllLayout (text : List Char) : Except Fault (List Char) :=
  skipLayout (text.length + 1) text

/-- Changes the table that a key leads to from a table. Missing tables are made. Where `arrays` is
set, an array of tables stands for its last table. Gives nothing if the key leads to another kind
of value. -/
def openTable (arrays : Bool)
    (change : List (String × Setting) → Except Problem (List (String × Setting))) :
    (key : List String) → List (String × Setting) → Except Problem (List (String × Setting))
  | [], table => change table
  | name :: key, table => do
    match Table.get? table name with
    | none =>
      let inner ← openTable arrays change key []
      return Table.put name (.table inner) table
    | some (.table found) =>
      let inner ← openTable arrays change key found
      return Table.put name (.table inner) table
    | some (.array items) =>
      match arrays, items.getLast? with
      | true, some (.table found) =>
        let inner ← openTable arrays change key found
        return Table.put name (.array (items.dropLast ++ [.table inner])) table
      | _, _ => throw .overwritten
    | some _ => throw .overwritten

/-- Puts a new entry into the table that a key leads to. -/
def insertEntry (arrays : Bool) (taken : Problem) (key : List String) (setting : Setting)
    (table : List (String × Setting)) : Except Problem (List (String × Setting)) :=
  match key.getLast? with
  | none => .ok table
  | some name =>
    openTable arrays (fun inner =>
      if (Table.get? inner name).isSome then .error taken
      else .ok (Table.put name setting inner)) key.dropLast table

def Setting.isContainer : Setting → Bool
  | .array _ => true
  | .table _ => true
  | _ => false

def leadsInto (keys : List (List String)) (key : List String) : Bool :=
  keys.any fun frozen => frozen.isPrefixOf key

mutual

def readSetting : (fuel : Nat) → List Char → Except Fault (Setting × List Char)
  | 0, text => fail .value text
  | fuel + 1, text =>
    match text with
    | '"' :: _ => (readText text).map fun found => (.text found.1, found.2)
    | '\'' :: _ => (readText text).map fun found => (.text found.1, found.2)
    | '[' :: rest => do
      let (items, behind) ← readItems fuel rest
      return (.array items, behind)
    | '{' :: rest =>
      match skipSpaces rest with
      | '}' :: behind => .ok (.table [], behind)
      | behind => do
        let (entries, last) ← readEntries fuel [] [] behind
        return (.table entries, last)
    | _ => readPlain text

def readItems : (fuel : Nat) → List Char → Except Fault (List Setting × List Char)
  | 0, text => fail .unclosedArray text
  | fuel + 1, text => do
    match ← skipAllLayout text with
    | ']' :: behind => return ([], behind)
    | begun =>
      let (item, behind) ← readSetting fuel begun
      match ← skipAllLayout behind with
      | ']' :: last => return ([item], last)
      | ',' :: next =>
        let (more, last) ← readItems fuel next
        return (item :: more, last)
      | other => fail .unclosedArray other

def readEntries : (fuel : Nat) → (table : List (String × Setting)) →
    (frozen : List (List String)) → List Char → Except Fault (List (String × Setting) × List Char)
  | 0, _, _, text => fail .unclosedTable text
  | fuel + 1, table, frozen, text => do
    let (key, behindKey) ← readKey text
    match behindKey with
    | '=' :: rest =>
      let (setting, behind) ← readSetting fuel (skipSpaces rest)
      if leadsInto frozen key then fail (.frozen key) behind
      else
        match insertEntry false (.duplicate (key.getLast?.getD "")) key setting table with
        | .error problem => fail problem behind
        | .ok extended =>
          match skipSpaces behind with
          | '}' :: last => return (extended, last)
          | ',' :: next =>
            let kept := if setting.isContainer then key :: frozen else frozen
            readEntries fuel extended kept (skipSpaces next)
          | other => fail .unclosedTable other
    | other => fail .assignment other

end

end TypedMarkup.Toml
