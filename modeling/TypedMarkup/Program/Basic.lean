import TypedMarkup.Plan.Basic

/-!
Contract: straight-line programs that construct documents.

Owns: `Program`, a list of statements on numbered variables. Every variable is assigned once, by a
`create` or `take` statement, and stands for one element (or for the node of a root block).
-/

namespace TypedMarkup.Program

/-- What a statement can add as a child, or a program return: a variable or a text node. -/
inductive Operand where
  | made (index : Nat)
  | text (value : String)
deriving DecidableEq, Repr

inductive Statement where
  | create (index : Nat) (schemaName : String)
  | parseAttribute (index : Nat) (name literal : String)
  | coerceAttribute (index : Nat) (name : String) (code : Expression)
  | setData (index : Nat) (name : String) (source : TextSource)
  | setEvent (index : Nat) (event : String) (source : TextSource)
  | setRequired (index : Nat) (children : List Nat)
  | append (index : Nat) (child : Operand)
  | extend (index : Nat) (code : Expression)
  | take (index : Nat) (code : Expression)
deriving DecidableEq, Repr

end TypedMarkup.Program

namespace TypedMarkup

/-- A program: the names it looks up first, its statements, and what it returns. -/
structure Program where
  names : List String
  statements : List Program.Statement
  result : Program.Operand
  output : Option OutputType
deriving DecidableEq, Repr

end TypedMarkup
