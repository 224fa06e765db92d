import TypedMarkup.CompileError
import TypedMarkup.Schema.Declaration
import TypedMarkup.Table
import TypedMarkup.Vocabulary

/-!
Contract: the types of attribute values.

Owns: `AttributeType`, its name, and `TypeSpec.resolve`, which finds the type that a declaration
names.

Does not own: reading values of a type, or fitting other values to it.
-/

namespace TypedMarkup

inductive CheckedText where
  | id
  | className
  | languageTag
  | mediaType
deriving DecidableEq, Repr

def CheckedText.name : CheckedText → String
  | id => "Id"
  | className => "Class"
  | languageTag => "LanguageTag"
  | mediaType => "Mime"

inductive Container where
  | set
  | list
deriving DecidableEq, Repr

def Container.name : Container → String
  | set => "SpacedSet"
  | list => "SpacedList"

def Container.ofName? (name : String) : Option Container :=
  [set, list].find? fun container => container.name == name

inductive AttributeType where
  | string (alternative : String)
  | bool
  | integer (unsigned : Bool)
  | real
  | vocabulary (words : Vocabulary)
  | checked (kind : CheckedText)
  | spaced (container : Container) (item : AttributeType)
deriving DecidableEq, Repr

namespace AttributeType

def name : AttributeType → String
  | string alternative => alternative
  | bool => "Bool"
  | integer unsigned => if unsigned then "usize" else "isize"
  | real => "f64"
  | vocabulary words => words.name
  | checked kind => kind.name
  | spaced container item => container.name ++ "<" ++ item.name ++ ">"

def stringNames : List String :=
  ["String", "Uri", "CharacterEncoding", "Datetime", "FeaturePolicy", "Integrity", "Nonce",
    "Target"]

def named : Table AttributeType :=
  stringNames.map (fun alternative => (alternative, string alternative)) ++
    [("Bool", bool), ("isize", integer false), ("usize", integer true), ("f64", real)] ++
    [CheckedText.id, .className, .languageTag, .mediaType].map
      (fun kind => (kind.name, checked kind)) ++
    [("ClassList", spaced .set (checked .className))] ++
    Vocabulary.all.map fun words => (words.name, vocabulary words)

end AttributeType

mutual

def TypeSpec.resolve : TypeSpec → Except TypeFault AttributeType
  | .mk name arguments =>
    match Container.ofName? name with
    | some container => resolveItem container arguments
    | none =>
      if arguments.isEmpty then
        match AttributeType.named.get? name with
        | some found => .ok found
        | none => .error (.unknown name)
      else .error (.noArguments name)

def TypeSpec.resolveItem (container : Container) : List TypeSpec → Except TypeFault AttributeType
  | [argument] => argument.resolve.map (.spaced container)
  | _ => .error (.oneArgument container.name)

end

end TypedMarkup
