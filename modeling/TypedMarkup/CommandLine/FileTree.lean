import TypedMarkup.CommandLine.Path
import TypedMarkup.Table
import TypedMarkup.Text.Quoted

/-!
Contract: the files below a directory.

Owns: `FileTree`, with reading and writing by path, and `FileFault`, why a path cannot be read or
written.

Does not own: anything outside of the directory. There, a path leads to a directory while it only
goes up, and to nothing otherwise.
-/

namespace TypedMarkup

inductive FileFault where
  | missing (path : Path)
  | notDirectory (path : Path)
  | isDirectory (path : Path)
deriving DecidableEq, Repr

def FileFault.message : FileFault → String
  | missing path => "[Errno 2] No such file or directory: " ++ Text.quoted path.text
  | notDirectory path => "[Errno 20] Not a directory: " ++ Text.quoted path.text
  | isDirectory path => "[Errno 21] Is a directory: " ++ Text.quoted path.text

inductive Place where
  | inside (parts : List String)
  | outside
deriving DecidableEq, Repr

/-- The contents of files, by the parts of their paths. Every part but the last is a directory. -/
structure FileTree where
  files : List (List String × String)
deriving DecidableEq, Repr

namespace FileTree

def ofTexts (files : List (String × String)) : FileTree :=
  ⟨files.map fun file => ((Path.ofText file.1).parts, file.2)⟩

def content? (tree : FileTree) (parts : List String) : Option String :=
  (tree.files.find? fun file => file.1 == parts).map Prod.snd

def isDirectory (tree : FileTree) (parts : List String) : Bool :=
  parts.isEmpty || tree.files.any fun file => file.1 != parts && parts.isPrefixOf file.1

/-- Whether a place is a directory, or why a path cannot lead on from it. -/
def checkDirectory (tree : FileTree) (path : Path) : Place → Except FileFault Unit
  | .outside => .ok ()
  | .inside parts =>
    if tree.isDirectory parts then .ok ()
    else if (tree.content? parts).isSome then .error (.notDirectory path)
    else .error (.missing path)

def step (path : Path) (part : String) : Place → Except FileFault Place
  | .outside => if part == ".." then .ok .outside else .error (.missing path)
  | .inside parts =>
    if part != ".." then .ok (.inside (parts ++ [part]))
    else if parts.isEmpty then .ok .outside
    else .ok (.inside parts.dropLast)

def walk (tree : FileTree) (path : Path) : Place → List String → Except FileFault Place
  | place, [] => .ok place
  | place, part :: rest => do
    tree.checkDirectory path place
    let next ← step path part place
    walk tree path next rest

def locate (tree : FileTree) (path : Path) : Except FileFault Place :=
  tree.walk path (if path.isAbsolute then .outside else .inside []) path.parts

def read (tree : FileTree) (path : Path) : Except FileFault String := do
  match ← tree.locate path with
  | .outside => throw (.isDirectory path)
  | .inside parts =>
    match tree.content? parts with
    | some content => return content
    | none =>
      if tree.isDirectory parts then throw (.isDirectory path) else throw (.missing path)

def put (tree : FileTree) (parts : List String) (content : String) : FileTree :=
  if (tree.content? parts).isSome then
    ⟨tree.files.map fun file => if file.1 == parts then (parts, content) else file⟩
  else ⟨tree.files ++ [(parts, content)]⟩

def write (tree : FileTree) (path : Path) (content : String) : Except FileFault FileTree := do
  match ← tree.locate path with
  | .outside => throw (.isDirectory path)
  | .inside parts =>
    if tree.isDirectory parts then throw (.isDirectory path)
    else return tree.put parts content

/-- The files of a tree that another tree does not have, or not with their content. -/
def changes (before after : FileTree) : List (String × String) :=
  (after.files.filter fun file => before.content? file.1 != some file.2).map fun file =>
    ("/".intercalate file.1, file.2)

end FileTree

end TypedMarkup
