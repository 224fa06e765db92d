import TypedMarkup.Markup.Basic
import TypedMarkup.Text.Blank
import TypedMarkup.Text.Quoted

/-!
Contract: the outline of a markup unit, one line for each node and attribute.

Owns: `Source.outline`.
-/

namespace TypedMarkup.Markup

def outlineIndent (depth : Nat) : String :=
  String.ofList (List.replicate (2 * depth) ' ')

def outlineWord : Expression → String
  | .path _ [] _ => "Name"
  | .path _ (_ :: _) _ => "Path"
  | .call _ _ _ => "Call"
  | .group .bracket _ _ => "List"
  | .group .paren _ _ => "Tuple"
  | .group .brace _ _ => "Block"

def outlineValue : AttributeValue → String
  | .literal _ raw _ _ => "Literal(" ++ raw ++ ")"
  | .expression expression =>
    outlineWord expression ++ "(" ++ Text.trim expression.code ++ ")"

def outlineAttribute (depth : Nat) (pair : Attribute) : String :=
  outlineIndent depth ++ "Attr " ++ pair.name ++ "=" ++ outlineValue pair.value ++ "\n"

/-- The code of a block, without the parentheses and blanks around it. -/
def outlineCode (expression : Expression) : String :=
  Text.trim (String.ofList (Text.trimWhere (fun character => character == '(' || character == ')')
    expression.code.toList))

mutual

def Node.outline (depth : Nat) : Node → String
  | .element tag children _ =>
    outlineIndent depth ++ "Element <" ++ tag.name ++ (if tag.selfClosing then " /" else "") ++
      ">\n" ++ String.join (tag.attributes.map (outlineAttribute (depth + 1))) ++
      outlineAll (depth + 1) children
  | .text value _ => outlineIndent depth ++ "Text(" ++ Text.quoted value ++ ")\n"
  | .block expression =>
    outlineIndent depth ++ "Block \x7b" ++ outlineCode expression ++ "\x7d\n"

def outlineAll (depth : Nat) : List Node → String
  | [] => ""
  | node :: rest => node.outline depth ++ outlineAll depth rest

end

def Source.outline (source : Source) : String :=
  let output :=
    match source.output with
    | some (name, _) => " : " ++ name
    | none => ""
  "Markup" ++ output ++ "\n" ++ source.root.outline 1

end TypedMarkup.Markup
