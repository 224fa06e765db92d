import TypedMarkup.Plan.Build
import TypedMarkup.Plan.Draft
import TypedMarkup.Schema.Html

/-!
Contract: from the text of a unit to its plan and its written form.

Owns: `resolveOutput`, `compile` and `render`.
-/

namespace TypedMarkup

/-- The output type of a unit: the one written in it, or else the one requested by name. The two
must not differ. -/
def resolveOutput (unit : Markup.Source) (requested : Option String) (source : String) :
    Except Failure (Option OutputType) := do
  let violation (cause : SchemaCause) (span : Span) : Failure :=
    .compile (Markup.violation source cause span)
  let declared ←
    match unit.output with
    | none => pure none
    | some (name, span) =>
      match OutputType.ofName? name with
      | some output => pure (some (output, span))
      | none => throw (violation (.unknownOutput name) span)
  let wanted ←
    match requested with
    | none => pure none
    | some name =>
      match OutputType.ofName? name with
      | some output => pure (some output)
      | none => throw (.unknownOutput name)
  match declared, wanted with
  | some (output, span), some other =>
    if output = other then return some output
    else throw (violation (.outputConflict output.name other.name) span)
  | some (output, _), none => return some output
  | none, other => return other

def compileUnit (unit : Markup.Source) (source : String) (registry : Registry)
    (requested : Option String) : Except Failure Plan := do
  let checked ← (unit.check registry source).mapError .compile
  let output ← resolveOutput unit requested source
  (Plan.ofChecked checked output source).mapError .compile

def compile (source : String) (registry : Registry) (requested : Option String) :
    Except Failure Plan := do
  let unit ← (Markup.parse source).mapError .compile
  compileUnit unit source registry requested

def render (source : String) (registry : Registry) (requested : Option String) (scope : Scope) :
    Except Failure String := do
  let plan ← compile source registry requested
  let node ← plan.build scope
  node.written

end TypedMarkup
