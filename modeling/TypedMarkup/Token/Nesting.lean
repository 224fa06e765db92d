import TypedMarkup.Token.Scan

/-!
Contract: bracketed groups of a token sequence.

Owns: `nest`, which folds matching brackets of the flat sequence into group tokens, `Token.flatten`,
which opens groups again, and `tokenize`.

The first fault in reading order is reported. A bracket that does not match is a fault where it
stands, a group without end is a fault at its opening bracket that is found only at the end.
-/

namespace TypedMarkup

/-- A group that has been opened: its bracket, the place of it, and the tokens before it, the
latest first. -/
structure OpenGroup where
  delimiter : Delimiter
  start : Position
  outer : List Token

/-- Folds the brackets of a flat token sequence into groups. `opened` are the groups not yet
closed, the innermost first; `current` are the tokens of the innermost one, the latest first. -/
def nest (source : List Char) (fault : Option LexicalFault) :
    (opened : List OpenGroup) → (current : List Token) → List Token →
      Except LexicalFault (List Token)
  | opened, current, [] =>
    match fault, opened with
    | some fault, _ => .error fault
    | none, group :: _ => .error ⟨.unclosed group.delimiter, group.start⟩
    | none, [] => .ok current.reverse
  | opened, current, token :: rest =>
    match token with
    | .opening delimiter span =>
      nest source fault (⟨delimiter, span.start, current⟩ :: opened) [] rest
    | .closing delimiter span =>
      match opened with
      | [] => .error ⟨.unexpectedClosing delimiter, span.start⟩
      | group :: outer =>
        if group.delimiter = delimiter then
          let raw := sliceOf source group.start.offset span.stop.offset
          let folded := Token.group delimiter (String.ofList raw) current.reverse
            ⟨group.start, span.stop⟩
          nest source fault outer (folded :: group.outer) rest
        else .error ⟨.mismatchedClosing group.delimiter delimiter, span.start⟩
    | other => nest source fault opened (other :: current) rest

mutual

/-- Opens the groups of a token again, at every depth. -/
def Token.flatten : Token → List Token
  | .group delimiter _ children span =>
    .opening delimiter ⟨span.start, span.start.right⟩ ::
      flattenAll children ++ [.closing delimiter ⟨span.stop.left, span.stop⟩]
  | token => [token]

def flattenAll : List Token → List Token
  | [] => []
  | token :: rest => token.flatten ++ flattenAll rest

end

def tokenize (source : String) : Except LexicalFault Tokens :=
  let text := source.toList
  let scanned := scan text
  (nest text scanned.fault [] [] scanned.tokens).map fun body => ⟨body, scanned.stop⟩

def Tokens.flatten (tokens : Tokens) : Tokens :=
  { tokens with body := flattenAll tokens.body }

end TypedMarkup
