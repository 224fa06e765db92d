import TypedMarkup.Source.Position
import TypedMarkup.Text.Lines

/-!
Contract: the printed form of an error in a source text.

Owns: `Report`, a message with its place, further notes and an optional hint, and `Report.render`,
the multi-line text with the source line and carets under the reported range.
-/

namespace TypedMarkup

/-- The file name that stands in a report when none is given. -/
def defaultFilename : String := "input.thtml"

structure Note where
  message : String
  span : Span
deriving DecidableEq, Repr

structure Report where
  message : String
  span : Span
  source : String
  notes : List Note
  hint : Option String
deriving DecidableEq, Repr

namespace Report

/-- The line a span starts on, as it is displayed; a line outside the source is empty. -/
def sourceLine (source : String) (span : Span) : List Char :=
  match span.start.line with
  | 0 => []
  | index + 1 => (((Text.displayLines source)[index]?).map Text.withoutLineEnd).getD []

/-- How many carets mark a span: its length on one line, else up to the end of its first line. -/
def caretCount (line : List Char) (span : Span) : Nat :=
  if span.stop.line = span.start.line then max 1 (span.stop.column - span.start.column)
  else max 1 (line.length + 1 - span.start.column)

def blanks (count : Nat) : String :=
  String.ofList (List.replicate count ' ')

def snippet (source : String) (span : Span) (filename : String) : String :=
  let line := sourceLine source span
  let number := toString span.start.line
  let gutter := blanks (number.length + 1)
  let carets := String.ofList (List.replicate (caretCount line span) '^')
  gutter ++ "--> " ++ filename ++ ":" ++ number ++ ":" ++ toString span.start.column ++ "\n" ++
    gutter ++ "|\n" ++
    number ++ " | " ++ String.ofList line ++ "\n" ++
    gutter ++ "| " ++ blanks (span.start.column - 1) ++ carets

/-- The full text of a report: message, snippet, notes with their snippets, then the hint. -/
def render (report : Report) (filename : String) : String :=
  let head := "error: " ++ report.message ++ "\n" ++ snippet report.source report.span filename
  let notes := report.notes.map fun note =>
    "\nnote: " ++ note.message ++ "\n" ++ snippet report.source note.span filename
  let hint :=
    match report.hint with
    | some hint => if hint.isEmpty then "" else "\n  = help: " ++ hint
    | none => ""
  head ++ String.join notes ++ hint

def withSource (report : Report) (source : String) : Report :=
  if report.source.isEmpty then { report with source := source } else report

end Report

end TypedMarkup
