/-!
Contract: file paths as text.

Owns: `Path`. A path is kept in normal form: parts that are empty or a single dot are dropped, and
two dots stay, because what they mean depends on the files.
-/

namespace TypedMarkup

/-- A path: its root, which is empty for a relative path, and its parts. -/
structure Path where
  root : String
  parts : List String
deriving DecidableEq, Repr

namespace Path

def here : Path := ⟨"", []⟩

/-- The root of a path that begins with a number of slashes. Two slashes are a root of their
own. -/
def rootOf (slashes : Nat) : String :=
  if slashes = 0 then "" else if slashes = 2 then "//" else "/"

def isKept (part : String) : Bool := part != "" && part != "."

/-- The parts of a text between its slashes, after a part already begun. -/
def partsFrom (begun : List Char) : List Char → List String
  | [] => [String.ofList begun]
  | '/' :: rest => String.ofList begun :: partsFrom [] rest
  | character :: rest => partsFrom (begun ++ [character]) rest

def ofText (text : String) : Path :=
  ⟨rootOf (text.toList.takeWhile (· == '/')).length, (partsFrom [] text.toList).filter isKept⟩

def isAbsolute (path : Path) : Bool := path.root != ""

def text (path : Path) : String :=
  if path.root == "" && path.parts.isEmpty then "." else path.root ++ "/".intercalate path.parts

/-- A path seen from a directory. An absolute path stays as it is. -/
def join (directory path : Path) : Path :=
  if path.isAbsolute then path else ⟨directory.root, directory.parts ++ path.parts⟩

def parent (path : Path) : Path := ⟨path.root, path.parts.dropLast⟩

def hasNull (path : Path) : Bool := path.parts.any fun part => part.toList.contains '\x00'

def name (path : Path) : String := path.parts.getLast?.getD ""

end Path

end TypedMarkup
