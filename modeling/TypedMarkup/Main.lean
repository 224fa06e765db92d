import TypedMarkup.CommandLine.Run

/-!
Contract: the command line tool.

Owns: the reading and writing of real files, standard output and standard error. What a run does is
decided by `CommandLine.prepare`.
-/

open TypedMarkup

def readReal (path : Path) : IO (Except FileFault String) := do
  try
    return .ok (← IO.FS.readFile path.text)
  catch
    | .noFileOrDirectory .. => return .error (.missing path)
    | .inappropriateType .. => return .error (.isDirectory path)
    | _ => return .error (.notDirectory path)

def readAmong (known : List (Path × Except FileFault String)) : ReadFile := fun path =>
  (known.lookup path).getD (.error (.missing path))

/-- Ends a run with a failure that is no error of the unit. -/
def failWith (failure : Failure) : IO UInt32 := do
  IO.eprintln (failure.kindName ++ ": " ++ failure.message)
  return 1

def main (words : List String) : IO UInt32 := do
  let first ← (CommandLine.neededFiles (readAmong []) words).mapM fun path => do
    return (path, ← readReal path)
  let known ← (CommandLine.neededFiles (readAmong first) words).mapM fun path => do
    return (path, ← readReal path)
  let (prepared, told) := CommandLine.prepare (readAmong known) words
  IO.eprint told
  match prepared with
  | .rejected stop =>
    match stop.message? with
    | none =>
      IO.println "usage: typedhtml [options] input"
      return 0
    | some message =>
      IO.eprintln ("typedhtml: error: " ++ message)
      return 2
  | .failed code => return code.toUInt32
  | .escaped failure => failWith failure
  | .ready none text =>
    IO.print text
    return 0
  | .ready (some path) text =>
    if path.hasNull then failWith .nullInPath
    else
      IO.FS.writeFile path.text text
      return 0
