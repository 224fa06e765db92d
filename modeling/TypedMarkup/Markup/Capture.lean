import TypedMarkup.Host.Reserved
import TypedMarkup.Markup.Basic
import TypedMarkup.Text.Blank
import TypedMarkup.Token.Cursor

/-!
Contract: capturing host expressions from tokens.

Owns: the grammar of expressions in markup (a group, a path, or one call of a path) and the host
code of a group, in which a path written with two colons is written with a point.

Two adjacent colons join a path when they directly follow an identifier and an identifier follows
them, unless they stand directly inside a subscript, where they are a slice.
-/

namespace TypedMarkup

namespace Capture

def isSubscript (before : Option Token) (token : Token) : Bool :=
  token.isGroup .bracket &&
    match before with
    | some (.identifier name _) => !Host.isReservedWord name
    | some (.group delimiter _ _ _) => delimiter != .brace
    | some (.number _ _) => true
    | some (.quoted _ _ _) => true
    | _ => false

def joinsPath (before : Option Token) (token : Token) (after : List Token) : Bool :=
  match before, token, after with
  | some (.identifier _ name), .mark ':' first, .mark ':' second :: .identifier _ _ :: _ =>
    name.stop.offset == first.start.offset && first.stop.offset == second.start.offset
  | _, _, _ => false

mutual

/-- The offsets of the path separators inside a group. -/
def separatorsOf (subscript : Bool) : Token → List Nat
  | .group _ _ children _ => separatorsIn subscript none children
  | _ => []

def separatorsIn (subscript : Bool) (before : Option Token) : List Token → List Nat
  | [] => []
  | token :: after =>
    (if !subscript && joinsPath before token after then [token.span.start.offset]
      else separatorsOf (isSubscript before token) token) ++
      separatorsIn subscript (some token) after

end

def writePoints (separators : List Nat) : Nat → List Char → List Char
  | _, [] => []
  | _, [last] => [last]
  | offset, first :: second :: rest =>
    if separators.contains offset then '.' :: writePoints separators (offset + 2) rest
    else first :: writePoints separators (offset + 1) (second :: rest)

def hostCode (group : Token) : String :=
  String.ofList (writePoints (separatorsOf false group) group.span.start.offset group.raw.toList)

/-- The expression of a group. The content of braces is put between parentheses on lines of its
own, so that it may run over lines and end in a comment. -/
def groupExpression (delimiter : Delimiter) (group : Token) : Expression :=
  let code := hostCode group
  match delimiter with
  | .brace =>
    let inner := Text.trimWhere Text.isBlank (code.toList.drop 1).dropLast
    .group .brace (String.ofList ("(\n".toList ++ inner ++ "\n)".toList)) group.span
  | other => .group other code group.span

/-- Reads the further segments of a path: their names, the span of the last one and the place
behind it. -/
def pathTail (last : Span) (cursor : Cursor) : List String × Span × Cursor :=
  match _ahead : cursor.ahead with
  | .mark '.' _ :: .identifier name span :: _ =>
    let tail := pathTail span cursor.forward.forward
    (name :: tail.1, tail.2)
  | .mark ':' first :: .mark ':' second :: .identifier name span :: _ =>
    if first.stop.offset = second.start.offset then
      let tail := pathTail span cursor.forward.forward.forward
      (name :: tail.1, tail.2)
    else ([], last, cursor)
  | _ => ([], last, cursor)
termination_by cursor.ahead.length
decreasing_by
  · simp only [Cursor.forward, _ahead, List.length_cons]
    omega
  · simp only [Cursor.forward, _ahead, List.length_cons]
    omega

def atExpression (cursor : Cursor) : Bool :=
  match cursor.current with
  | .identifier _ _ => true
  | .group _ _ _ _ => true
  | _ => false

def expression (cursor : Cursor) : Except CompileError (Expression × Cursor) :=
  match cursor.current with
  | .group delimiter raw children span =>
    .ok (groupExpression delimiter (.group delimiter raw children span), cursor.forward)
  | .identifier head span =>
    let tail := pathTail span cursor.forward
    let segments := head :: tail.1
    let whole := span.join tail.2.1
    let behind := tail.2.2
    let arguments := behind.current
    if arguments.isGroup .paren then
      .ok (.call segments (".".intercalate segments ++ hostCode arguments)
        (whole.join arguments.span), behind.forward)
    else .ok (.path head tail.1 whole, behind)
  | other => .error (cursor.error .notAnExpression other.span)

end Capture

end TypedMarkup
