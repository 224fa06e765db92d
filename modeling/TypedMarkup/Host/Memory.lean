import TypedMarkup.Host.Builtin
import TypedMarkup.Host.Operation
import TypedMarkup.Table

/-!
Contract: what an evaluation keeps while it runs.

Owns: `Memory`, the cells of variables and the iterations that are going on, `Frame`, the place at
which a term is evaluated, and `Run`, a computation that changes a memory or fails. A variable is
a cell, so that functions see what is assigned to it after they are made. An iteration is a place
in the memory, so that everyone who has it takes from the same items.
-/

namespace TypedMarkup.Host

/-- Where a term is evaluated: the variables of the functions around it, and what the names of
functions that are made there start with. -/
structure Frame where
  scopes : Scopes
  path : String

namespace Frame

def top : Frame := ⟨[], ""⟩

/-- Inside of a function that is made with variables around it. -/
def inFunction (scopes : Scopes) (name : String) (own : List (String × Nat)) : Frame :=
  ⟨own :: scopes, name ++ ".<locals>."⟩

def inComprehension (frame : Frame) (name : String) (own : List (String × Nat)) : Frame :=
  ⟨own :: frame.scopes, frame.path ++ name ++ "."⟩

end Frame

/-- A loop that is going on: what it binds, the iteration that it takes items from, and the clauses
that it runs for each of them. -/
structure Loop where
  target : Target
  source : Nat
  rest : Producer

/-- An iteration that is going on. The loops of a generator are those it is in, the innermost
first. While a generator runs, it cannot be asked for items. -/
inductive Iteration where
  | items (rest : List Value) (finish : Option Failure)
  | range (next step : Int) (left : Nat)
  | mapped (function : Value) (sources : List Nat)
  | generator (frame : Frame) (loops : List Loop)
  | running

/-- The state of an evaluation: the names outside of all functions, the variables inside of them,
the iterations, how many identities have been given out, and how many functions are being called
within one another. A variable that is not assigned yet has no value. -/
structure Memory where
  globals : Table Value
  cells : Array (Option Value)
  iterations : Array Iteration
  made : Nat
  depth : Nat

def Memory.start (globals : Table Value) : Memory :=
  { globals := globals, cells := #[], iterations := #[], made := 0, depth := 0 }

abbrev Run := StateT Memory (Except Failure)

namespace Run

def identity : Run Nat :=
  modifyGet fun memory => (memory.made, { memory with made := memory.made + 1 })

/-- Gives a new `nan` its identity. -/
def settled (value : Value) : Run Value :=
  match value with
  | .real .nan none => do return .real .nan (some (.made (← identity)))
  | other => pure other

def declare (names : List String) : Run (List (String × Nat)) :=
  modifyGet fun memory =>
    (names.zipIdx memory.cells.size,
      { memory with cells := memory.cells ++ Array.replicate names.length none })

def assign (cell : Nat) (value : Value) : Run Unit :=
  modify fun memory => { memory with cells := memory.cells.setIfInBounds cell (some value) }

def declareWith (entries : List (String × Value)) : Run (List (String × Nat)) :=
  modifyGet fun memory =>
    ((entries.map Prod.fst).zipIdx memory.cells.size,
      { memory with cells := memory.cells ++ (entries.map fun entry => some entry.2).toArray })

def read? (cell : Nat) : Run (Option Value) := do
  return ((← get).cells[cell]?).join

def begin (iteration : Iteration) : Run Nat :=
  modifyGet fun memory =>
    (memory.iterations.size, { memory with iterations := memory.iterations.push iteration })

def iteration (reference : Nat) : Run Iteration := do
  return ((← get).iterations[reference]?).getD (.items [] none)

def proceed (reference : Nat) (iteration : Iteration) : Run Unit :=
  modify fun memory =>
    { memory with iterations := memory.iterations.setIfInBounds reference iteration }

/-- How many functions can be called within one another. -/
def depthLimit : Nat := 990

def nested {α : Type} (computation : Run α) : Run α := do
  if depthLimit ≤ (← get).depth then throw .tooDeep
  modify fun memory => { memory with depth := memory.depth + 1 }
  let result ← computation
  modify fun memory => { memory with depth := memory.depth - 1 }
  return result

end Run

/-- The items of a value that is iterated over from its start each time, except for ranges. -/
def plainItems? : Value → Option (List Value)
  | .list items => some items
  | .tuple items => some items
  | .dict entries => some (entries.map Prod.fst)
  | .spaced .list items => some items
  | .spaced .set items => some (walkOrder items items)
  | .plainSet items => some (walkOrder items items)
  | .vocabulary words => some (words.members.map .member)
  | other =>
    other.content?.map fun content => content.toList.map fun character =>
      .text (String.singleton character)

/-- Starts the iteration over a value, or gives the one that a lazy value is. -/
def iterate (value : Value) : Run Nat :=
  match value with
  | .lazy _ reference => pure reference
  | .stream _ (some text) _ _ => throw (.raised text)
  | .stream items none finish _ => Run.begin (.items items finish)
  | .range start stop step => Run.begin (.range start step (Value.rangeLength start stop step))
  | other =>
    match plainItems? other with
    | some items => Run.begin (.items items none)
    | none => throw (.notIterable other.typeName)

/-- The value of a name. A variable of a function that is not assigned yet hides what is outside. -/
def readName (frame : Frame) (identifier : String) : Run Value := do
  match frame.scopes.findSome? (·.lookup identifier) with
  | some cell =>
    match ← Run.read? cell with
    | some value => return value
    | none =>
      if (frame.scopes.head?.bind (·.lookup identifier)).isSome then
        throw (.unboundOwn identifier)
      else throw (.unboundOuter identifier)
  | none =>
    match (← get).globals.get? identifier with
    | some value => return value
    | none =>
      match builtinValue? identifier with
      | some value => return value
      | none => throw (.unboundName identifier)

end TypedMarkup.Host
