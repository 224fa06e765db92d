import TypedMarkup.Host.Display
import TypedMarkup.Number.Reading

/-!
Contract: settings files in the TOML format, and what can be wrong with them.

Owns: `Setting`, `Problem` and `Fault`, a problem with the text from its place on.

Does not own: dates and times, which settings do not use.
-/

namespace TypedMarkup.Toml

inductive Setting where
  | text (value : String)
  | integer (value : Int)
  | real (value : Binary64)
  | bool (value : Bool)
  | array (items : List Setting)
  | table (entries : List (String × Setting))

mutual

def Setting.value : Setting → Value
  | .text value => .text value
  | .integer value => .int value
  | .real value => .real value none
  | .bool value => .bool value
  | .array items => .list (values items)
  | .table entries => .dict (entryValues entries)

def values : List Setting → List Value
  | [] => []
  | item :: rest => item.value :: values rest

def entryValues : List (String × Setting) → List (Value × Value)
  | [] => []
  | entry :: rest => entryValue entry :: entryValues rest

def entryValue : String × Setting → Value × Value
  | (name, item) => (.text name, item.value)

end

inductive Problem where
  | statement
  | statementEnd
  | declaredTwice (key : List String)
  | overwritten
  | tableEnd
  | arrayTableEnd
  | frozen (key : List String)
  | redefined (key : List String)
  | assignment
  | keyStart
  | unclosedArray
  | unclosedTable
  | duplicate (name : String)
  | escape
  | hexadecimal
  | scalarValue
  | expected (stop : String)
  | found (character : Char)
  | unterminated
  | illegal (character : Char)
  | value
  | digits (count : Nat)
deriving DecidableEq, Repr

def keyText (key : List String) : String := tupleText (key.map Text.quoted)

def characterText (character : Char) : String := Text.quoted (String.singleton character)

def Problem.message : Problem → String
  | statement => "Invalid statement"
  | statementEnd => "Expected newline or end of document after a statement"
  | declaredTwice key => "Cannot declare " ++ keyText key ++ " twice"
  | overwritten => "Cannot overwrite a value"
  | tableEnd => "Expected ']' at the end of a table declaration"
  | arrayTableEnd => "Expected ']]' at the end of an array declaration"
  | frozen key => "Cannot mutate immutable namespace " ++ keyText key
  | redefined key => "Cannot redefine namespace " ++ keyText key
  | assignment => "Expected '=' after a key in a key/value pair"
  | keyStart => "Invalid initial character for a key part"
  | unclosedArray => "Unclosed array"
  | unclosedTable => "Unclosed inline table"
  | duplicate name => "Duplicate inline table key " ++ Text.quoted name
  | escape => "Unescaped '\\' in a string"
  | hexadecimal => "Invalid hex value"
  | scalarValue => "Escaped character is not a Unicode scalar value"
  | expected stop => "Expected " ++ Text.quoted stop
  | found character => "Found invalid character " ++ characterText character
  | unterminated => "Unterminated string"
  | illegal character => "Illegal character " ++ characterText character
  | value => "Invalid value"
  | digits count => (Failure.integerDigits count).message

structure Fault where
  problem : Problem
  rest : List Char
deriving DecidableEq, Repr

def placeText (text rest : List Char) : String :=
  if rest.isEmpty then "end of document"
  else
    let before := text.take (text.length - rest.length)
    let line := before.count '\n' + 1
    let column := (before.reverse.takeWhile (· != '\n')).length + 1
    s!"line {line}, column {column}"

def Fault.message (fault : Fault) (text : List Char) : String :=
  fault.problem.message ++ " (at " ++ placeText text fault.rest ++ ")"

end TypedMarkup.Toml
