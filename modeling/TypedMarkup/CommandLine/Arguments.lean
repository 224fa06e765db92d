import TypedMarkup.Output
import TypedMarkup.Text.Numeral
import TypedMarkup.Text.Quoted

/-!
Contract: the words of a command line.

Owns: `Arguments`, `Arguments.parse`, and `ArgumentStop`, why a command line is not carried out.

A word is an option, or a plain word. Options may be shortened as long as they stay unambiguous,
letters of options may share a word, and a value is the next word or is attached to its option.
A word `--` ends the options; attached as a value, it leaves its option without one. All words are
classified before the first one is acted on, and all options of a word before the first of them.
-/

namespace TypedMarkup

inductive Flag where
  | help
  | outputFile
  | schema
  | output
  | define
  | config
  | emit
  | check
  | debug
  | verbose
deriving DecidableEq, Repr

namespace Flag

def spellings : List (String × Flag) := [
  ("-h", help), ("--help", help), ("-o", outputFile), ("--output-file", outputFile),
  ("--schema", schema), ("--output", output), ("-D", define), ("--define", define),
  ("--config", config), ("--emit", emit), ("--check", check), ("--debug", debug),
  ("-v", verbose), ("--verbose", verbose)]

def ofSpelling? (spelling : String) : Option Flag :=
  (spellings.find? fun entry => entry.1 == spelling).map Prod.snd

def takesValue : Flag → Bool
  | outputFile => true
  | schema => true
  | output => true
  | define => true
  | config => true
  | _ => false

/-- How messages name an option: by all of its spellings. -/
def name (flag : Flag) : String :=
  "/".intercalate ((spellings.filter fun entry => entry.2 == flag).map Prod.fst)

end Flag

/-- Why a command line is not carried out. -/
inductive ArgumentStop where
  | helpWanted
  | ambiguous (word : String) (candidates : List String)
  | missingValue (flag : Flag)
  | ignoredValue (flag : Flag) (value : String)
  | invalidChoice (flag : Flag) (value : String)
  | conflict (flag other : Flag)
  | missingInput
  | unrecognized (words : List String)
deriving DecidableEq, Repr

namespace ArgumentStop

def about (flag : Flag) (text : String) : String := "argument " ++ flag.name ++ ": " ++ text

def message? : ArgumentStop → Option String
  | helpWanted => none
  | ambiguous word candidates =>
    some (s!"ambiguous option: {word} could match " ++ ", ".intercalate candidates)
  | missingValue flag => some (about flag "expected one argument")
  | ignoredValue flag value =>
    some (about flag ("ignored explicit argument " ++ Text.quoted value))
  | invalidChoice flag value =>
    some (about flag ("invalid choice: " ++ Text.quoted value ++ " (choose from " ++
      ", ".intercalate (OutputType.all.map fun output => Text.quoted output.name) ++ ")"))
  | conflict flag other => some (about flag ("not allowed with argument " ++ other.name))
  | missingInput => some "the following arguments are required: input"
  | unrecognized words => some ("unrecognized arguments: " ++ " ".intercalate words)

end ArgumentStop

/-- What follows an option inside of its word: a value behind the equals sign of a long option, or
the characters behind a letter, less an equals sign that follows the first letter. -/
inductive Attached where
  | nothing
  | assigned (value : String)
  | joined (value : List Char)
deriving DecidableEq, Repr

inductive Word where
  | plain (text : String)
  | separator
  | option (flag : Flag) (attached : Attached)
  | unknown (text : String)
deriving DecidableEq, Repr

namespace Word

/-- A text before and behind the first equals sign, if it has one. -/
def splitAssignment (text : String) : String × Option String :=
  match text.toList.span (· != '=') with
  | (before, []) => (String.ofList before, none)
  | (before, _ :: behind) => (String.ofList before, some (String.ofList behind))

def attachedOf : Option String → Attached
  | some value => .assigned value
  | none => .nothing

def isNegativeNumber (text : String) : Bool :=
  let isDigit (character : Char) : Bool := (Text.digitValue? character).isSome
  let number := match text.toList with
    | '-' :: rest => if rest.getLast? == some '\n' then rest.dropLast else rest
    | _ => []
  let fraction := number.dropWhile isDigit
  match fraction with
  | [] => !number.isEmpty
  | '.' :: digits => !digits.isEmpty && digits.all isDigit
  | _ => false

def withoutOption (text : String) : Word :=
  if isNegativeNumber text || text.contains ' ' then .plain text else .unknown text

def ofLong (text : String) : Except ArgumentStop Word :=
  let (start, value) := splitAssignment text
  match Flag.spellings.filter fun entry => start.toList.isPrefixOf entry.1.toList with
  | [] => .ok (withoutOption text)
  | [(_, flag)] => .ok (.option flag (attachedOf value))
  | candidates => .error (.ambiguous text (candidates.map Prod.fst))

/-- A word that begins with one dash: an option of one letter with what is joined to it. -/
def ofShort (text : String) (letter : Char) (rest : List Char) : Word :=
  match Flag.ofSpelling? (String.ofList ['-', letter]) with
  | some flag => .option flag (.joined rest)
  | none => withoutOption text

def ofText (text : String) : Except ArgumentStop Word :=
  match text.toList with
  | '-' :: letter :: rest =>
    match Flag.ofSpelling? text with
    | some flag => .ok (.option flag .nothing)
    | none =>
      let (start, value) := splitAssignment text
      match value, Flag.ofSpelling? start with
      | some value, some flag =>
        .ok (.option flag
          (if letter == '-' then .assigned value else .joined value.toList))
      | _, _ => if letter == '-' then ofLong text else .ok (ofShort text letter rest)
  | _ => .ok (.plain text)

/-- The kinds of all words. Behind a separator all words are plain. -/
def ofTexts : List String → Except ArgumentStop (List Word)
  | [] => .ok []
  | text :: rest =>
    if text == "--" then .ok (.separator :: rest.map Word.plain)
    else do
      let first ← ofText text
      let more ← ofTexts rest
      return first :: more

end Word

/-- What the words of a command line say. A schema, an output or a definition that was asked for
without a value is `none`. -/
structure Arguments where
  input : String
  outputFile : Option String
  schema : List (Option String)
  output : Option (Option OutputType)
  define : List (Option String)
  config : Option String
  emit : Bool
  check : Bool
  debug : Bool
  verbose : Nat
deriving DecidableEq, Repr

namespace Arguments

inductive Act where
  | plain (flag : Flag)
  | valued (flag : Flag) (value : String)
deriving DecidableEq, Repr

/-- The options that one word holds: those that are complete, and one that still needs a value. -/
structure Cluster where
  acts : List Act
  open? : Option Flag
deriving DecidableEq, Repr

def Cluster.after (flag : Flag) (cluster : Cluster) : Cluster :=
  { cluster with acts := .plain flag :: cluster.acts }

def bare (flag : Flag) : Cluster :=
  if flag.takesValue then ⟨[], some flag⟩ else ⟨[.plain flag], none⟩

/-- An option with a value behind an equals sign. -/
def assigned (flag : Flag) (value : String) : Except ArgumentStop Cluster :=
  if flag.takesValue then .ok ⟨[.valued flag value], none⟩
  else .error (.ignoredValue flag value)

/-- An option of one letter with further characters: its value, or further options. -/
def joined (flag : Flag) : List Char → Except ArgumentStop Cluster
  | [] => assigned flag ""
  | letter :: rest =>
    if flag.takesValue then assigned flag (String.ofList (letter :: rest))
    else
      match Flag.ofSpelling? (String.ofList ['-', letter]) with
      | none => .error (.ignoredValue flag (String.ofList (letter :: rest)))
      | some next =>
        (if rest.isEmpty then .ok (bare next) else joined next rest).map (Cluster.after flag)

def clusterOf (flag : Flag) : Attached → Except ArgumentStop Cluster
  | .nothing => .ok (bare flag)
  | .assigned value => assigned flag value
  | .joined value => joined flag value

structure Progress where
  input : Option String
  extras : List String
  arguments : Arguments
deriving DecidableEq, Repr

def Progress.start : Progress :=
  ⟨none, [], ⟨"", none, [], none, [], none, false, false, false, 0⟩⟩

def Progress.withExtra (progress : Progress) (text : String) : Progress :=
  { progress with extras := progress.extras ++ [text] }

/-- The value that a text gives to an option. A separator gives none. -/
def given (text : String) : Option String := if text == "--" then none else some text

def act (arguments : Arguments) : Act → Except ArgumentStop Arguments
  | .plain .help => .error .helpWanted
  | .plain .emit =>
    if arguments.check then .error (.conflict .emit .check)
    else .ok { arguments with emit := true }
  | .plain .check =>
    if arguments.emit then .error (.conflict .check .emit)
    else .ok { arguments with check := true }
  | .plain .debug => .ok { arguments with debug := true }
  | .plain .verbose => .ok { arguments with verbose := arguments.verbose + 1 }
  | .plain _ => .ok arguments
  | .valued .outputFile text => .ok { arguments with outputFile := given text }
  | .valued .schema text => .ok { arguments with schema := arguments.schema ++ [given text] }
  | .valued .output text =>
    match given text with
    | none => .ok { arguments with output := some none }
    | some name =>
      match OutputType.ofName? name with
      | some output => .ok { arguments with output := some (some output) }
      | none => .error (.invalidChoice .output name)
  | .valued .define text => .ok { arguments with define := arguments.define ++ [given text] }
  | .valued .config text => .ok { arguments with config := given text }
  | .valued _ _ => .ok arguments

def Progress.actAll (progress : Progress) (acts : List Act) : Except ArgumentStop Progress :=
  (acts.foldlM act progress.arguments).map fun arguments =>
    { progress with arguments := arguments }

/-- Acts on words in order. The first plain word is the input. -/
def consume : List Word → Progress → Except ArgumentStop Progress
  | [], progress => .ok progress
  | .plain text :: .separator :: rest, progress =>
    if progress.input.isNone then consume rest { progress with input := some text }
    else consume rest ((progress.withExtra text).withExtra "--")
  | .plain text :: rest, progress =>
    if progress.input.isNone then consume rest { progress with input := some text }
    else consume rest (progress.withExtra text)
  | .separator :: .plain text :: rest, progress =>
    if progress.input.isNone then consume rest { progress with input := some text }
    else consume rest ((progress.withExtra "--").withExtra text)
  | .separator :: rest, progress => consume rest (progress.withExtra "--")
  | .unknown text :: rest, progress => consume rest (progress.withExtra text)
  | .option flag attached :: .plain text :: rest, progress => do
    let cluster ← clusterOf flag attached
    match cluster.open? with
    | some needy => consume rest (← progress.actAll (cluster.acts ++ [.valued needy text]))
    | none =>
      let next ← progress.actAll cluster.acts
      consume (.plain text :: rest) next
  | .option flag attached :: rest, progress => do
    let cluster ← clusterOf flag attached
    match cluster.open? with
    | some needy => throw (.missingValue needy)
    | none => consume rest (← progress.actAll cluster.acts)

def parse (texts : List String) : Except ArgumentStop Arguments := do
  let words ← Word.ofTexts texts
  let progress ← consume words .start
  match progress.input with
  | none => throw .missingInput
  | some input =>
    if progress.extras.isEmpty then return { progress.arguments with input := input }
    else throw (.unrecognized progress.extras)

end Arguments

end TypedMarkup
