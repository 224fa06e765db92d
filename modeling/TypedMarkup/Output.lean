/-!
Contract: the two targets of a built document.

Owns: `OutputType`. A document for text output is printed, so its event handlers are program text.
A document for a live tree is walked by an adapter, so its event handlers are callable.
-/

namespace TypedMarkup

inductive OutputType where
  | string
  | dom
deriving DecidableEq, Repr

def OutputType.name : OutputType → String
  | string => "String"
  | dom => "Dom"

def OutputType.all : List OutputType := [string, dom]

def OutputType.ofName? (name : String) : Option OutputType :=
  all.find? fun output => output.name == name

end TypedMarkup
