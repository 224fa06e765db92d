import TypedMarkup.Compile

/-!
Contract: diagnostics for editors.

Owns: `Diagnostic`, one message with its place, and `Publication`, the diagnostics of a document
that is open in an editor, with ranges that count lines and characters from zero.
-/

namespace TypedMarkup

inductive Severity where
  | error
deriving DecidableEq, Repr

def Severity.name : Severity → String
  | error => "error"

structure Diagnostic where
  span : Span
  severity : Severity
  message : String
  notes : List (Span × String)
  hint : Option String
deriving DecidableEq, Repr

def CompileError.diagnostics (error : CompileError) : List Diagnostic :=
  [{ span := error.span
     severity := .error
     message := error.message
     notes := error.cause.notes.map fun note => (note.span, note.message)
     hint := error.cause.hint }]

/-- A range that counts lines and characters from zero. -/
structure EditorRange where
  startLine : Nat
  startCharacter : Nat
  stopLine : Nat
  stopCharacter : Nat
deriving DecidableEq, Repr

def Span.editorRange (span : Span) : EditorRange :=
  ⟨span.start.line - 1, span.start.column - 1, span.stop.line - 1, span.stop.column - 1⟩

structure EditorDiagnostic where
  range : EditorRange
  message : String
  severity : Severity
  origin : String
  related : List (EditorRange × String)
deriving DecidableEq, Repr

/-- A diagnostic as an editor shows it: the hint stands on a line of its own. -/
def Diagnostic.forEditor (diagnostic : Diagnostic) : EditorDiagnostic :=
  let hint := match diagnostic.hint with
    | some hint => if hint.isEmpty then "" else "\nhelp: " ++ hint
    | none => ""
  { range := diagnostic.span.editorRange
    message := diagnostic.message ++ hint
    severity := diagnostic.severity
    origin := "typedhtml"
    related := diagnostic.notes.map fun note => (note.1.editorRange, note.2) }

/-- The diagnostics of a document, which replace those published before. -/
structure Publication where
  document : String
  diagnostics : List EditorDiagnostic
deriving DecidableEq, Repr

def Publication.ofContent (document content : String) : Publication :=
  match compile content .html none with
  | .error (.compile error) => ⟨document, error.diagnostics.map Diagnostic.forEditor⟩
  | _ => ⟨document, []⟩

end TypedMarkup
