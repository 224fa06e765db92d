import TypedMarkup.CommandLine.Arguments
import TypedMarkup.CommandLine.FileTree
import TypedMarkup.Text.Word
import TypedMarkup.Toml.Document

/-!
Contract: the options of a run, from its arguments and its settings file.

Owns: `Options`, `Options.resolve`, `parseDefinition`, and `OptionFault`.

What an argument says goes before what the settings file says. Schema files that settings name are
seen from the directory of the input, those that arguments name from the current directory.
-/

namespace TypedMarkup

/-- How a run can read files: the content at a path, or why there is none. -/
abbrev ReadFile := Path → Except FileFault String

inductive OptionFault where
  | definitionFormat (text : String)
  | definitionName (name : String)
  | outputSetting (shown : String)
  | settings (text : String)
  | settingDigits (count : Nat)
  | settingLength
  | schemaWithoutValue
deriving DecidableEq, Repr

def OptionFault.message : OptionFault → String
  | definitionFormat text => "invalid define format (expected NAME=VALUE): " ++ text
  | definitionName name => "invalid variable name in define: " ++ Text.quoted name
  | outputSetting shown =>
    "invalid output type in config: " ++ shown ++ " (expected String or Dom)"
  | settings text => text
  | settingDigits count => (Failure.integerDigits count).message
  | settingLength => Failure.integerLength.message
  | schemaWithoutValue => Failure.message (.notPath "list")

/-- The failure of a fault that a run does not report itself. -/
def OptionFault.failure? : OptionFault → Option Failure
  | settingDigits count => some (.integerDigits count)
  | settingLength => some .integerLength
  | schemaWithoutValue => some (.notPath "list")
  | _ => none

inductive LogLevel where
  | debug
  | info
  | warning
deriving DecidableEq, Repr

namespace LogLevel

/-- The number of a level: the higher, the more serious. -/
def number : LogLevel → Nat
  | debug => 10
  | info => 20
  | warning => 30

/-- The level for a number of wishes to hear more. -/
def ofVerbose : Nat → LogLevel
  | 0 => warning
  | 1 => info
  | _ => debug

end LogLevel

/-- The options of a run. An output that was asked for without a value is `some none`. -/
structure Options where
  inputFile : Path
  outputFile : Option Path
  schemaFiles : List Path
  output : Option (Option OutputType)
  scope : Table String
  emit : Bool
  check : Bool
  debug : Bool
  verbose : Nat
deriving DecidableEq, Repr

def parseDefinition (text : String) : Except OptionFault (String × String) :=
  match Word.splitAssignment text with
  | (_, none) => .error (.definitionFormat text)
  | (name, some value) =>
    if Text.isWord name then .ok (name, value) else .error (.definitionName name)

def missingText : String := "[]"

/-- The name of the output type that was asked for. No output type has the name that stands for a
missing value. -/
def Options.outputName (options : Options) : Option String :=
  options.output.map fun asked => (asked.map OutputType.name).getD missingText

/-- The name of the settings file that is looked for next to the input. -/
def settingsName : String := "typedhtml.toml"

namespace Arguments

def inputPath (arguments : Arguments) : Path := .ofText arguments.input

def pathOf? : Option String → Option Path
  | some text => if text.isEmpty then none else some (.ofText text)
  | none => none

def settingsPath (arguments : Arguments) : Path :=
  match pathOf? arguments.config with
  | some path => path
  | none => arguments.inputPath.parent.join (.ofText settingsName)

end Arguments

namespace Options

/-- The entries of a settings file. A file that is not there has none. -/
def settingsOf (read : ReadFile) (path : Path) :
    Except OptionFault (List (String × Toml.Setting)) :=
  match read path with
  | .error _ => .ok []
  | .ok content =>
    match Toml.parse content with
    | .ok table => .ok table
    | .error (.digits count, _) => .error (.settingDigits count)
    | .error (_, text) => .error (.settings text)

def tableNamed (settings : List (String × Toml.Setting)) (name : String) :
    List (String × Toml.Setting) :=
  match Table.get? settings name with
  | some (.table entries) => entries
  | _ => []

def settingText (setting : Toml.Setting) : Except OptionFault String :=
  setting.value.shown.mapError fun _ => .settingLength

def schemaSettings (settings : List (String × Toml.Setting)) (directory : Path) :
    Except OptionFault (List Path) :=
  match Table.get? (tableNamed settings "schema") "files" with
  | some (.array items) => do
    let texts ← items.mapM settingText
    return texts.map fun text => directory.join (.ofText text)
  | _ => return []

def outputSetting (settings : List (String × Toml.Setting)) :
    Except OptionFault (Option OutputType) :=
  match Table.get? (tableNamed settings "render") "output" with
  | none => .ok none
  | some setting =>
    let named := match setting with
      | .text name => OutputType.ofName? name
      | _ => none
    match named with
    | some output => .ok (some output)
    | none =>
      match setting.value.shownLiteral with
      | .ok shown => .error (.outputSetting shown)
      | .error _ => .error .settingLength

def scopeSettings (settings : List (String × Toml.Setting)) : Except OptionFault (Table String) :=
  (tableNamed settings "scope").mapM fun entry => do return (entry.1, ← settingText entry.2)

def ofSettings (arguments : Arguments) (settings : List (String × Toml.Setting)) :
    Except OptionFault Options := do
  let schemaFiles ← schemaSettings settings arguments.inputPath.parent
  let schemaTexts ← match arguments.schema.mapM id with
    | some texts => pure texts
    | none => throw .schemaWithoutValue
  let named ← outputSetting settings
  let defined ← scopeSettings settings
  let definitions ← arguments.define.mapM fun text => parseDefinition (text.getD missingText)
  return {
    inputFile := arguments.inputPath
    outputFile := Arguments.pathOf? arguments.outputFile
    schemaFiles := schemaFiles ++ schemaTexts.map Path.ofText
    output := arguments.output <|> named.map some
    scope := Table.putAll defined definitions
    emit := arguments.emit
    check := arguments.check
    debug := arguments.debug
    verbose := arguments.verbose }

def resolve (read : ReadFile) (arguments : Arguments) : Except OptionFault Options := do
  ofSettings arguments (← settingsOf read arguments.settingsPath)

end Options

end TypedMarkup
