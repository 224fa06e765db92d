import TypedMarkup.Number.Binary64

/-!
Contract: host expressions after reading.

Owns: `Term`, an expression, and `Producer`, the clauses of a comprehension from left to right
down to what it yields. Also `Signature` and `Scopes`, which values take from terms.
-/

namespace TypedMarkup.Host

inductive Operator where
  | add
  | subtract
  | multiply
  | divide
  | floorDivide
  | modulo
deriving DecidableEq, Repr

def Operator.symbol : Operator → String
  | add => "+"
  | subtract => "-"
  | multiply => "*"
  | divide => "/"
  | floorDivide => "//"
  | modulo => "%"

inductive Comparison where
  | equal
  | unequal
  | less
  | greater
  | lessEqual
  | greaterEqual
  | member
  | nonmember
deriving DecidableEq, Repr

def Comparison.symbol : Comparison → String
  | equal => "=="
  | unequal => "!="
  | less => "<"
  | greater => ">"
  | lessEqual => "<="
  | greaterEqual => ">="
  | member => "in"
  | nonmember => "not in"

/-- What a comprehension binds: one name, or the parts of each item. -/
inductive Target where
  | name (identifier : String)
  | items (parts : List Target)

mutual

def Target.identifiers : Target → List String
  | .name identifier => [identifier]
  | .items parts => identifiersAll parts

def identifiersAll : List Target → List String
  | [] => []
  | part :: rest => part.identifiers ++ identifiersAll rest

end

/-- What a function is called in messages, the names of its parameters, and the parameter that
takes the arguments that are left over. -/
structure Signature where
  name : String
  parameters : List String
  collector : Option String
deriving DecidableEq, Repr

/-- The variables of the functions around a term by the cells that hold their values, those of the
innermost function first. -/
abbrev Scopes := List (List (String × Nat))

inductive Collection where
  | list
  | generator
  | dict
deriving DecidableEq, Repr

mutual

/-- A host expression. In a slice, an absent part is `none`. The defaults of a function belong to
the last of its parameters, and `collector` takes the arguments that are left over. The clauses of
a comprehension start with a loop. -/
inductive Term where
  | none
  | bool (value : Bool)
  | int (value : Int)
  | real (value : Binary64)
  | text (value : String)
  | name (identifier : String)
  | attributeOf (object : Term) (attributeName : String)
  | call (function : Term) (positional : List Term) (keywords : List String) (named : List Term)
  | list (items : List Term)
  | tuple (items : List Term)
  | dict (entries : List (Term × Term))
  | subscript (object index : Term)
  | slice (start stop step : Term)
  | negate (operand : Term)
  | plus (operand : Term)
  | not (operand : Term)
  | binary (operator : Operator) (left right : Term)
  | compare (first : Term) (comparisons : List Comparison) (others : List Term)
  | and (left right : Term)
  | or (left right : Term)
  | conditional (condition consequent alternative : Term)
  | lambda (parameters : List String) (defaults : List Term) (collector : Option String)
      (body : Term)
  | comprehension (collection : Collection) (target : Target) (source : Term) (rest : Producer)

/-- The clauses of a comprehension behind its first loop. A dictionary yields pairs. -/
inductive Producer where
  | yields (item : Term)
  | yieldsPair (key value : Term)
  | guard (condition : Term) (rest : Producer)
  | each (target : Target) (source : Term) (rest : Producer)

end

def Term.isSlice : Term → Bool
  | .slice _ _ _ => true
  | _ => false

/-- Whether a subscript of several parts has a slice among them. -/
def Term.hasSlice : Term → Bool
  | .tuple items => items.any Term.isSlice
  | _ => false

/-- The names that the loops among clauses bind. -/
def Producer.identifiers : Producer → List String
  | .yields _ => []
  | .yieldsPair _ _ => []
  | .guard _ rest => rest.identifiers
  | .each target _ rest => target.identifiers ++ rest.identifiers

end TypedMarkup.Host
