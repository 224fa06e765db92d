import TypedMarkup.CommandLine.Options
import TypedMarkup.Compile
import TypedMarkup.Markup.Outline
import TypedMarkup.Program.Text
import TypedMarkup.Text.Lines

/-!
Contract: a run of the command line tool.

Owns: `CommandLine.prepare`, everything that a run does up to the writing of its result, as a
function of how files read, and `CommandLine.run`, the whole run on a tree of files.

Nothing is printed or written unless everything before it succeeded. A run ends with code 0, with 1
for an error of the lexical grammar or the grammar of a unit, and with 2 for every other error that
is reported.
-/

namespace TypedMarkup.CommandLine

inductive Notice where
  | settingsRead (path : Path)
  | schemasResolved (count : Nat)
  | planned (label : String) (output : Option OutputType)
  | compiled (path : Path)
  | built (shown : String)
deriving DecidableEq, Repr

namespace Notice

def level : Notice → LogLevel
  | settingsRead _ => .info
  | compiled _ => .info
  | _ => .debug

def text : Notice → String
  | settingsRead path => "loaded config from " ++ path.text
  | schemasResolved count => s!"resolved {count} element schemas"
  | planned label output =>
    "generated plan for " ++ label ++ " (output " ++
      ((output.map OutputType.name).getD "None") ++ ")"
  | compiled path => "compiled " ++ path.text
  | built shown => "built " ++ shown

def line (notice : Notice) : String :=
  (match notice.level with
    | .debug => "DEBUG: "
    | .info => "INFO: "
    | .warning => "WARNING: ") ++ notice.text ++ "\n"

end Notice

inductive Entry where
  | notice (notice : Notice)
  | outline (text : String)
deriving DecidableEq, Repr

def journalText (level : LogLevel) (entries : List Entry) : String :=
  String.join (entries.map fun entry =>
    match entry with
    | .notice notice => if level.number ≤ notice.level.number then notice.line else ""
    | .outline text => text)

inductive Halt where
  | file (fault : FileFault)
  | failure (failure : Failure)

/-- A compilation keeps what it told even if it stops. -/
abbrev Work := ExceptT Halt (StateM (List Entry))

def tell (entry : Entry) : Work Unit := modify fun entries => entries ++ [entry]

def orHalt {α : Type} (result : Except Halt α) : Work α := ExceptT.mk (pure result)

/-- The content of a file, in which every line ends with a line feed. No file has a path with a null
character. -/
def readText (read : ReadFile) (path : Path) : Except Halt String :=
  if path.hasNull then .error (.failure .nullInPath)
  else ((read path).map Text.unifyLineEnds).mapError .file

def mergeFiles (read : ReadFile) (registry : Registry) : List Path → Work Registry
  | [] => return registry
  | path :: rest => do
    let source ← orHalt (readText read path)
    let merged ← orHalt ((registry.merge source).mapError fun error => .failure (.compile error))
    tell (.notice (.schemasResolved merged.schemas.length))
    mergeFiles read merged rest

/-- The result of a run: the text of the document or of its program, or nothing for a check. -/
def compileInput (read : ReadFile) (options : Options) : Work String := do
  tell (.notice (.schemasResolved Registry.html.schemas.length))
  let registry ← mergeFiles read .html options.schemaFiles
  let source ← orHalt (readText read options.inputFile)
  let unit ← orHalt ((Markup.parse source).mapError fun error => .failure (.compile error))
  if options.debug then tell (.outline unit.outline)
  let plan ← orHalt ((compileUnit unit source registry
    options.outputName).mapError .failure)
  tell (.notice (.planned plan.root.label plan.output))
  tell (.notice (.compiled options.inputFile))
  if options.check then return ""
  if options.emit then
    orHalt ((plan.emit options.inputFile.name).mapError .failure)
  else
    let scope := Scope.ofTable (options.scope.map fun entry => (entry.1, .text entry.2))
    let node ← orHalt ((plan.build scope).mapError .failure)
    tell (.notice (.built (Value.node node).literal))
    let written ← orHalt (node.written.mapError .failure)
    return written ++ "\n"

def exitCode (error : CompileError) : Nat :=
  match error.cause with
  | .lexical _ _ => 1
  | .grammar _ => 1
  | .tagMismatch _ _ _ => 1
  | _ => 2

/-- The name of the file that an error is about: a schema file with the text of the error, and the
input otherwise. -/
def errorFile (read : ReadFile) (options : Options) (error : CompileError) : String :=
  let isSource (path : Path) : Bool :=
    match readText read path with
    | .ok content => content == error.source
    | .error _ => false
  if error.source.isEmpty then options.inputFile.text
  else ((options.schemaFiles.find? isSource).getD options.inputFile).text

/-- What a run comes to before anything is printed or written. -/
inductive Prepared where
  | rejected (stop : ArgumentStop)
  | failed (code : Nat)
  | ready (destination : Option Path) (text : String)
  | escaped (failure : Failure)

def stopped (fault : OptionFault) : Prepared :=
  match fault.failure? with
  | some failure => .escaped failure
  | none => .failed 2

def faultText (fault : OptionFault) : String :=
  if fault.failure?.isSome then "" else "error: " ++ fault.message ++ "\n"

/-- A run up to the writing of its result, and what it told. -/
def prepare (read : ReadFile) (words : List String) : Prepared × String :=
  match Arguments.parse words with
  | .error stop => (.rejected stop, "")
  | .ok arguments =>
    let level := LogLevel.ofVerbose arguments.verbose
    match Options.settingsOf read arguments.settingsPath with
    | .error fault => (stopped fault, faultText fault)
    | .ok settings =>
      let begun := if settings.isEmpty then []
        else [.notice (.settingsRead arguments.settingsPath)]
      match Options.ofSettings arguments settings with
      | .error fault => (stopped fault, journalText level begun ++ faultText fault)
      | .ok options =>
        let (result, entries) := (compileInput read options).run begun
        let told := journalText level entries
        match result with
        | .ok text => (.ready options.outputFile text, told)
        | .error (.file fault) =>
          (.failed 2, told ++ "error: " ++ fault.message ++ "\n")
        | .error (.failure (.compile error)) =>
          (.failed (exitCode error),
            told ++ error.render (errorFile read options error) ++ "\n")
        | .error (.failure failure) => (.escaped failure, told)

/-- The files that a run reads, as far as they are known from how files read. -/
def neededFiles (read : ReadFile) (words : List String) : List Path :=
  match Arguments.parse words with
  | .error _ => []
  | .ok arguments =>
    arguments.settingsPath ::
      match Options.resolve read arguments with
      | .error _ => []
      | .ok options => options.schemaFiles ++ [options.inputFile]

inductive Ending where
  | rejected (stop : ArgumentStop)
  | exit (code : Nat) (printed : String)
  | failed (failure : Failure)
  | unwritten (fault : FileFault)

/-- What a run leaves behind: its ending, what it told, and the files. -/
structure Outcome where
  ending : Ending
  told : String
  files : FileTree

def run (files : FileTree) (words : List String) : Outcome :=
  let (prepared, told) := prepare files.read words
  match prepared with
  | .rejected stop => ⟨.rejected stop, told, files⟩
  | .failed code => ⟨.exit code "", told, files⟩
  | .escaped failure => ⟨.failed failure, told, files⟩
  | .ready none text => ⟨.exit 0 text, told, files⟩
  | .ready (some path) text =>
    if path.hasNull then ⟨.failed .nullInPath, told, files⟩
    else
      match files.write path text with
      | .ok written => ⟨.exit 0 "", told, written⟩
      | .error fault => ⟨.unwritten fault, told, files⟩

end TypedMarkup.CommandLine
