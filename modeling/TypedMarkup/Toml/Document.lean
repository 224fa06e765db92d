import TypedMarkup.Toml.Value

/-!
Contract: whole settings files.

Owns: `Toml.parse`. A file is a sequence of entries and table headers. A table may be declared
once, a value may be given once, and a value that is complete cannot be extended.
-/

namespace TypedMarkup.Toml

/-- A file that is read in part: its data, the keys that are complete values, the keys of tables
that must not be declared again, those that must not once the next header has come, and the key of
the current table. -/
structure Draft where
  data : List (String × Setting)
  frozen : List (List String)
  declared : List (List String)
  pending : List (List String)
  header : List String

def Draft.start : Draft := ⟨[], [], [], [], []⟩

/-- A draft in which the tables of dotted keys count as declared. -/
def Draft.settled (draft : Draft) : Draft :=
  { draft with declared := draft.pending ++ draft.declared, pending := [] }

def at? {α : Type} (rest : List Char) (result : Except Problem α) : Except Fault α :=
  result.mapError fun problem => ⟨problem, rest⟩

def closing (brackets : String) (problem : Problem) (text : List Char) :
    Except Fault (List Char) :=
  if brackets.toList.isPrefixOf text then .ok (text.drop brackets.length)
  else .error ⟨problem, text⟩

/-- Declares a table. `text` follows its opening bracket. -/
def declareTable (draft : Draft) (text : List Char) : Except Fault (Draft × List Char) := do
  let (key, behind) ← readKey (skipSpaces text)
  if draft.declared.contains key || leadsInto draft.frozen key then
    throw ⟨.declaredTwice key, behind⟩
  let data ← at? behind (openTable true .ok key draft.data)
  let rest ← closing "]" .tableEnd behind
  return ({ draft with data := data, declared := key :: draft.declared, header := key }, rest)

def appendTable (name : String) (table : List (String × Setting)) :
    Except Problem (List (String × Setting)) :=
  match Table.get? table name with
  | none => .ok (Table.put name (.array [.table []]) table)
  | some (.array items) => .ok (Table.put name (.array (items ++ [.table []])) table)
  | some _ => .error .overwritten

/-- Declares a further table of an array. `text` follows its opening brackets. -/
def declareArrayTable (draft : Draft) (text : List Char) : Except Fault (Draft × List Char) := do
  let (key, behind) ← readKey (skipSpaces text)
  if leadsInto draft.frozen key then throw ⟨.frozen key, behind⟩
  let isOutside (other : List String) : Bool := !key.isPrefixOf other
  let data ← at? behind
    (openTable true (appendTable (key.getLast?.getD "")) key.dropLast draft.data)
  let rest ← closing "]]" .arrayTableEnd behind
  return ({ draft with
    data := data
    frozen := draft.frozen.filter isOutside
    declared := key :: draft.declared.filter isOutside
    header := key }, rest)

def throughKeys (header key : List String) : List (List String) :=
  (List.range (key.length - 1)).map fun index => header ++ key.take (index + 1)

def takeEntry (draft : Draft) (text : List Char) : Except Fault (Draft × List Char) := do
  let (key, behindKey) ← readKey text
  match behindKey with
  | '=' :: rest =>
    let (setting, behind) ← readSetting (rest.length + 1) (skipSpaces rest)
    let through := throughKeys draft.header key
    match through.find? draft.declared.contains with
    | some known => throw ⟨.redefined known, behind⟩
    | none =>
      let parent := draft.header ++ key.dropLast
      if leadsInto draft.frozen parent then throw ⟨.frozen parent, behind⟩
      let full := draft.header ++ key
      let data ← at? behind (insertEntry true .overwritten full setting draft.data)
      let frozen := if setting.isContainer then full :: draft.frozen else draft.frozen
      return ({ draft with
        data := data, frozen := frozen, pending := through ++ draft.pending }, behind)
  | other => throw ⟨.assignment, other⟩

def takeStatement (draft : Draft) (text : List Char) : Except Fault (Draft × List Char) :=
  match text with
  | '[' :: '[' :: rest => declareArrayTable draft.settled rest
  | '[' :: rest => declareTable draft.settled rest
  | '#' :: _ => .ok (draft, text)
  | character :: _ =>
    if isBare character || character == '"' || character == '\'' then takeEntry draft text
    else .error ⟨.statement, text⟩
  | [] => .ok (draft, text)

def takeStatements : (fuel : Nat) → Draft → List Char → Except Fault Draft
  | 0, draft, _ => .ok draft
  | fuel + 1, draft, text =>
    match skipSpaces text with
    | [] => .ok draft
    | '\n' :: rest => takeStatements fuel draft rest
    | begun => do
      let (next, behind) ← takeStatement draft begun
      match ← skipComment (skipSpaces behind) with
      | [] => return next
      | '\n' :: rest => takeStatements fuel next rest
      | other => throw ⟨.statementEnd, other⟩

/-- A text in which every line ends with a line feed alone. -/
def plainLines : List Char → List Char
  | '\r' :: '\n' :: rest => '\n' :: plainLines rest
  | character :: rest => character :: plainLines rest
  | [] => []

/-- The table that a settings file says, or the problem and the message that names its place. -/
def parse (text : String) : Except (Problem × String) (List (String × Setting)) :=
  let characters := plainLines text.toList
  match takeStatements (characters.length + 1) .start characters with
  | .ok draft => .ok draft.data
  | .error fault => .error (fault.problem, fault.message characters)

end TypedMarkup.Toml
