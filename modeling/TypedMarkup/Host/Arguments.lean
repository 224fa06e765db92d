import TypedMarkup.Host.Value

/-!
Contract: the arguments of calls.

Owns: `Signature.bind`, which gives each parameter of a function its argument. Positional arguments
come first, named ones are put where their names say, and what is left takes its default. Faults
of names are found before a wrong number of arguments.
-/

namespace TypedMarkup.Host

def argumentFailure {μ : Type → Type} [MonadExceptOf Failure μ] {α : Type} (text : String) :
    μ α :=
  throwThe Failure (.argumentCount text)

def quotedNames (names : List String) : String :=
  let shown := names.map fun name => "'" ++ name ++ "'"
  match shown with
  | [] => ""
  | [only] => only
  | [first, second] => first ++ " and " ++ second
  | many => ", ".intercalate many.dropLast ++ ", and " ++ (many.getLast?.getD "")

namespace Signature

/-- Adds named arguments to those that have their parameters already. -/
def bindNamed (signature : Signature) (bound : List (String × Value)) :
    List (String × Value) → Except Failure (List (String × Value))
  | [] => .ok bound
  | (name, value) :: rest =>
    if !signature.parameters.contains name then
      argumentFailure s!"{signature.name}() got an unexpected keyword argument '{name}'"
    else if (bound.lookup name).isSome then
      argumentFailure s!"{signature.name}() got multiple values for argument '{name}'"
    else bindNamed signature (bound ++ [(name, value)]) rest

/-- Checks that there are not more positional arguments than parameters. -/
def checkSurplus (signature : Signature) (defaults given : Nat) : Except Failure Unit :=
  let most := signature.parameters.length
  if most < given ∧ signature.collector.isNone then
    let count := if defaults = 0 then s!"{most}" else s!"from {most - defaults} to {most}"
    let noun := if most = 1 ∧ defaults = 0 then "argument" else "arguments"
    let verb := if given = 1 then "was" else "were"
    argumentFailure s!"{signature.name}() takes {count} positional {noun} but {given} {verb} given"
  else .ok ()

def checkMissing (signature : Signature) (defaults : Nat) (bound : List (String × Value)) :
    Except Failure Unit :=
  let needed := signature.parameters.take (signature.parameters.length - defaults)
  let missing := needed.filter fun name => (bound.lookup name).isNone
  if missing.isEmpty then .ok ()
  else
    let noun := if missing.length = 1 then "argument" else "arguments"
    argumentFailure (s!"{signature.name}() missing {missing.length} required positional {noun}: " ++
      quotedNames missing)

/-- The values of the parameters in a call. The defaults belong to the last parameters. -/
def bind (signature : Signature) (defaults positional : List Value)
    (named : List (String × Value)) : Except Failure (List (String × Value)) := do
  let bound ← signature.bindNamed (signature.parameters.zip positional) named
  signature.checkSurplus defaults.length positional.length
  signature.checkMissing defaults.length bound
  let optional := signature.parameters.drop (signature.parameters.length - defaults.length)
  let filled := (optional.zip defaults).filter fun entry => (bound.lookup entry.1).isNone
  let surplus := positional.drop signature.parameters.length
  return bound ++ filled ++ signature.collector.toList.map fun name => (name, .tuple surplus)

end Signature

end TypedMarkup.Host
