import TypedMarkup.Host.Evaluate
import TypedMarkup.Host.FreeNames
import TypedMarkup.Host.Grammar
import TypedMarkup.Host.Repetition
import TypedMarkup.Markup.Basic

/-!
Contract: the names that expressions of a unit can use, and the values of expressions among them.

Owns: `Scope`, `Scope.resolve` for paths, `Expression.evaluate` and `Expression.freeNames`. A value
comes with the memory of its evaluation, in which its iterations go on.

A scope always has the vocabularies, the classes of texts and collections, and the two makers of
text nodes; given names hide those. A path is read through the keys of dictionaries first and
through attributes second.
-/

namespace TypedMarkup

/-- The names that expressions can use, in order of their first definition. -/
structure Scope where
  entries : Table Value

namespace Scope

def defaults : Table Value :=
  Vocabulary.all.map (fun words => (words.name, Value.vocabulary words)) ++ [
    ("Id", .builtin (.checked .id)),
    ("Class", .builtin (.checked .className)),
    ("SpacedSet", .builtin (.spaced .set)),
    ("SpacedList", .builtin (.spaced .list)),
    ("text", .builtin .makeText),
    ("unsafe_text", .builtin .makeVerbatim)]

def child (scope : Scope) (names : Table Value) : Scope :=
  ⟨scope.entries.putAll names⟩

def ofTable (names : Table Value) : Scope :=
  child ⟨defaults⟩ names

def get? (scope : Scope) (name : String) : Option Value :=
  scope.entries.get? name

def member? (value : Value) (segment : String) : Option Value :=
  match value with
  | .dict entries =>
    match entry? entries (.text segment) with
    | some found => some found
    | none => Host.attribute? value segment
  | other => Host.attribute? other segment

/-- Follows the segments of a path from a value on. `walked` is the path up to it. -/
def follow (value : Value) (walked : String) : List String → Except ConstructionCause Value
  | [] => .ok value
  | segment :: rest =>
    match member? value segment with
    | some found => follow found (walked ++ "." ++ segment) rest
    | none => .error (.noMember walked segment)

def resolve (scope : Scope) (head : String) (members : List String) :
    Except ConstructionCause Value :=
  match scope.get? head with
  | some value => follow value head members
  | none => .error (.unboundName head)

/-- The value of a name, which need not be in scope if it is a name of the host language. -/
def lookup (scope : Scope) (name : String) : Except ConstructionCause Value :=
  match scope.get? name with
  | some value => .ok value
  | none =>
    match Host.builtinValue? name with
    | some value => .ok value
    | none => .error (.unboundName name)

end Scope

/-- A failed computation is an error of the unit at the span of its expression, unless it cannot
even be told. -/
def Failure.toldAt (span : Span) : Failure → Failure
  | .missingLongKey => .integerLength
  | other => .compile (.construction (.evaluationFailed other.kindName other.message) span)

/-- How the failed evaluation of the expression at a span is reported. -/
def Failure.reportedAt (span : Span) : Failure → Failure
  | .unboundName identifier => .compile (.construction (.unboundName identifier) span)
  | .unboundOuter identifier => .compile (.construction (.unboundName identifier) span)
  | .unboundOwn _ => .compile (.construction (.unboundName "None") span)
  | other => other.toldAt span

structure Evaluated where
  value : Value
  memory : Host.Memory

namespace Expression

def failureAt (span : Span) (cause : ConstructionCause) : Failure :=
  .compile (.construction cause span)

/-- The term of the host code at a span. Code with a null character is not even read, and this is
no error of the unit. -/
def term (code : String) (span : Span) : Except Failure Host.Term :=
  if code.toList.contains '\x00' then .error .nullInCode
  else
    match Host.Term.parse? code with
    | some found => .ok found
    | none => .error (failureAt span (.invalidExpression "invalid syntax"))

/-- The value of the host code at a span among the names of a scope. -/
def evaluateCode (code : String) (span : Span) (scope : Scope) : Except Failure Evaluated := do
  let found ← term code span
  if found.repeats then throw (failureAt span (.invalidExpression "invalid syntax"))
  match (Host.evaluate found).run (.start scope.entries) with
  | .ok (value, memory) => return ⟨value, memory⟩
  | .error failure => throw (failure.reportedAt span)

def evaluate (expression : Expression) (scope : Scope) : Except Failure Evaluated :=
  match expression with
  | path head members span =>
    match scope.resolve head members with
    | .ok value => .ok ⟨value, .start scope.entries⟩
    | .error cause => .error (failureAt span cause)
  | call _ code span => evaluateCode code span scope
  | group _ code span => evaluateCode code span scope

/-- The names that an expression reads and does not bind, in the order of their first use. -/
def freeNames (expression : Expression) : Except Failure (List String) :=
  match expression with
  | path head _ _ => .ok [head]
  | other => (term other.code other.span).map Host.Term.freeNames

end Expression

end TypedMarkup
