import TypedMarkup.CompileError
import TypedMarkup.Output

/-!
Contract: what can go wrong while host values are computed and fitted into documents.

Owns: `Rejection` (a value that does not fit an attribute type), `Refusal` (a change that an
element does not take), `Failure` (anything that stops a computation), their messages, and the
names of the kinds of failure, which messages about expressions show.

A failure is an error of a unit only when the construction of a document turns it into one.
-/

namespace TypedMarkup

def Cause.kindName : Cause → String
  | lexical _ _ => "LexError"
  | grammar _ => "ParseError"
  | tagMismatch _ _ _ => "TagMismatchError"
  | schema _ => "SchemaError"
  | attributeValue _ _ _ _ => "AttributeValueError"
  | missingOutput _ _ => "MissingOutputTypeError"
  | construction _ => "ConstructionError"

inductive FailureKind where
  | arithmetic
  | assertion
  | attributeMissing
  | index
  | key
  | memory
  | name
  | overflow
  | recursion
  | type
  | unbound
  | value
deriving DecidableEq, Repr

def FailureKind.text : FailureKind → String
  | arithmetic => "ZeroDivisionError"
  | assertion => "AssertionError"
  | attributeMissing => "AttributeError"
  | index => "IndexError"
  | key => "KeyError"
  | memory => "MemoryError"
  | name => "NameError"
  | overflow => "OverflowError"
  | recursion => "RecursionError"
  | type => "TypeError"
  | unbound => "UnboundLocalError"
  | value => "ValueError"

inductive Rejection where
  | notBool
  | notInteger
  | belowMinimum (minimum : Int)
  | notNumber
  | notWord (allowed : List String)
  | emptyName (what : String)
  | nameStart (what : String)
  | nameCharacter (what : String)
  | notLanguageTag (text : String)
  | notMediaType (text : String)
  | wrongType (typeName expected : String)
  | otherVocabulary (expected found member : String)
deriving DecidableEq, Repr

namespace Rejection

def message : Rejection → String
  | notBool => "expected 'true' or 'false'"
  | notInteger => "expected an integer"
  | belowMinimum minimum => s!"expected an integer >= {minimum}"
  | notNumber => "expected a number"
  | notWord allowed => "expected one of " ++ ", ".intercalate (allowed.map Text.quoted)
  | emptyName what => s!"{what} cannot be empty"
  | nameStart what => s!"{what} must start with an alphabetic character"
  | nameCharacter what => s!"{what} can only contain alphanumerics, dash, dot and underscore"
  | notLanguageTag text => Text.quoted text ++ " is not a valid language tag"
  | notMediaType text => Text.quoted text ++ " is not a valid media type"
  | wrongType typeName expected => s!"cannot use a value of type {typeName} as {expected}"
  | otherVocabulary expected found member => s!"expected {expected}, got {found}.{member}"

/-- A value of a wrong type is a type failure, all else a value failure. -/
def kind : Rejection → FailureKind
  | wrongType _ _ => .type
  | otherVocabulary _ _ _ => .type
  | _ => .value

end Rejection

inductive Refusal where
  | unknownAttribute (element attributeName : String)
  | requiredChildren (element : String) (expected found : List String)
  | childless (element : String)
  | notNode (typeName element : String)
  | rejectedChild (element constraint found : String)
  | handler (output : OutputType) (typeName : String)
  | printedHandler
deriving DecidableEq, Repr

namespace Refusal

def bracketed (names : List String) : String :=
  "[" ++ ", ".intercalate names ++ "]"

def message : Refusal → String
  | unknownAttribute element attributeName => s!"<{element}> has no attribute '{attributeName}'"
  | requiredChildren element expected found =>
    s!"<{element}> requires children " ++ bracketed expected ++ " but got " ++ bracketed found
  | childless element => s!"<{element}> does not accept children"
  | notNode typeName element => s!"cannot add a value of type {typeName} as a child of <{element}>"
  | rejectedChild element constraint found =>
    s!"<{element}> only accepts {constraint} children, got {found}"
  | handler .string typeName => s!"String output needs a str event handler, got {typeName}"
  | handler .dom typeName => s!"Dom output needs a callable event handler, got {typeName}"
  | printedHandler => "string event handlers can only be rendered, not attached"

def kind : Refusal → FailureKind
  | unknownAttribute _ _ => .key
  | requiredChildren _ _ _ => .value
  | _ => .type

end Refusal

/-- What stops a computation on host values. -/
inductive Failure where
  | compile (error : CompileError)
  | rejected (rejection : Rejection)
  | refused (refusal : Refusal)
  | raised (text : String)
  | unknownOutput (name : String)
  | outputMissing
  | unboundName (identifier : String)
  | unboundOwn (identifier : String)
  | unboundOuter (identifier : String)
  | missingKey (key shown : String)
  | missingLongKey
  | indexRange (what : String)
  | indexTooLarge
  | divisionByZero (text : String)
  | noAttribute (typeName attributeName : String)
  | noClassAttribute (className attributeName : String)
  | noWord (attributeName : String)
  | operands (symbol left right : String)
  | concatenation (container other : String)
  | repetition (other : String)
  | comparison (symbol left right : String)
  | unaryOperand (symbol typeName : String)
  | notCallable (typeName : String)
  | notSubscriptable (typeName : String)
  | classSubscript (className : String)
  | notIterable (typeName : String)
  | notContainer (typeName : String)
  | textMembership (typeName : String)
  | noLength (typeName : String)
  | containerIndex (container typeName : String)
  | textIndex (typeName : String)
  | sliceIndex
  | sliceStep
  | rangeStep
  | unhashable (typeName : String)
  | integerText (base : Nat) (shown : String)
  | integerBase
  | integerDigits (digits : Nat)
  | notPath (typeName : String)
  | nullInCode
  | nullInPath
  | integerLength
  | integerArgument (typeName : String)
  | integerRequired (typeName : String)
  | realText (shown : String)
  | realArgument (typeName : String)
  | integerOfReal (what : String) (overflow : Bool)
  | invalidWord (shown vocabulary : String)
  | tooLarge
  | quotientTooLarge
  | countTooLarge
  | repeatedTooLong
  | lengthTooLarge
  | noRoom
  | joinItem (index : Nat) (typeName : String)
  | joinArgument
  | absoluteOperand (typeName : String)
  | argumentCount (text : String)
  | pattern (text : String)
  | patternLetter (text : String)
  | characterRange
  | unpackSource (typeName : String)
  | unpackFew (expected found : Nat)
  | unpackMany (expected : Nat)
  | alreadyRunning
  | tooDeep

namespace Failure

/-- The message of a failure. A compile error shows its whole report. -/
def message : Failure → String
  | compile error => error.render defaultFilename
  | rejected rejection => rejection.message
  | refused refusal => refusal.message
  | raised text => text
  | unknownOutput name => unknownOutputMessage name
  | outputMissing => ""
  | unboundName identifier => s!"name '{identifier}' is not defined"
  | unboundOwn identifier =>
    s!"cannot access local variable '{identifier}' where it is not associated with a value"
  | unboundOuter identifier =>
    s!"cannot access free variable '{identifier}' where it is not associated with a value in " ++
      "enclosing scope"
  | missingKey _ shown => shown
  | missingLongKey => ""
  | indexRange what => s!"{what} index out of range"
  | divisionByZero text => text
  | noAttribute typeName attributeName =>
    s!"'{typeName}' object has no attribute '{attributeName}'"
  | noClassAttribute className attributeName =>
    s!"type object '{className}' has no attribute '{attributeName}'"
  | noWord attributeName => attributeName
  | operands symbol left right =>
    s!"unsupported operand type(s) for {symbol}: '{left}' and '{right}'"
  | concatenation container other =>
    s!"can only concatenate {container} (not \"{other}\") to {container}"
  | repetition other => s!"can't multiply sequence by non-int of type '{other}'"
  | comparison symbol left right =>
    s!"'{symbol}' not supported between instances of '{left}' and '{right}'"
  | unaryOperand symbol typeName => s!"bad operand type for unary {symbol}: '{typeName}'"
  | notCallable typeName => s!"'{typeName}' object is not callable"
  | notSubscriptable typeName => s!"'{typeName}' object is not subscriptable"
  | classSubscript className => s!"type '{className}' is not subscriptable"
  | notIterable typeName => s!"'{typeName}' object is not iterable"
  | notContainer typeName => s!"argument of type '{typeName}' is not iterable"
  | textMembership typeName =>
    s!"'in <string>' requires string as left operand, not {typeName}"
  | noLength typeName => s!"object of type '{typeName}' has no len()"
  | containerIndex container typeName =>
    s!"{container} indices must be integers or slices, not {typeName}"
  | textIndex typeName => s!"string indices must be integers, not '{typeName}'"
  | sliceIndex => "slice indices must be integers or None or have an __index__ method"
  | sliceStep => "slice step cannot be zero"
  | rangeStep => "range() arg 3 must not be zero"
  | unhashable typeName => s!"unhashable type: '{typeName}'"
  | integerText base shown => s!"invalid literal for int() with base {base}: {shown}"
  | integerBase => "int() base must be >= 2 and <= 36, or 0"
  | notPath typeName => "expected str, bytes or os.PathLike object, not " ++ typeName
  | nullInCode => "source code string cannot contain null bytes"
  | nullInPath => "embedded null byte"
  | integerDigits digits =>
    "Exceeds the limit (4300 digits) for integer string conversion: value has " ++
      s!"{digits} digits; use sys.set_int_max_str_digits() to increase the limit"
  | integerLength =>
    "Exceeds the limit (4300 digits) for integer string conversion; use " ++
      "sys.set_int_max_str_digits() to increase the limit"
  | integerArgument typeName =>
    "int() argument must be a string, a bytes-like object or a real number, not " ++
      s!"'{typeName}'"
  | realText shown => s!"could not convert string to float: {shown}"
  | realArgument typeName =>
    s!"float() argument must be a string or a real number, not '{typeName}'"
  | integerRequired typeName => s!"'{typeName}' object cannot be interpreted as an integer"
  | integerOfReal what _ => s!"cannot convert float {what} to integer"
  | invalidWord shown vocabulary => s!"{shown} is not a valid {vocabulary}"
  | tooLarge => "int too large to convert to float"
  | quotientTooLarge => "integer division result too large for a float"
  | indexTooLarge => "cannot fit 'int' into an index-sized integer"
  | countTooLarge => "cannot fit 'int' into an index-sized integer"
  | repeatedTooLong => "repeated string is too long"
  | lengthTooLarge => "Python int too large to convert to C ssize_t"
  | noRoom => ""
  | joinItem index typeName =>
    s!"sequence item {index}: expected str instance, {typeName} found"
  | joinArgument => "can only join an iterable"
  | absoluteOperand typeName => s!"bad operand type for abs(): '{typeName}'"
  | argumentCount text => text
  | pattern text => text
  | patternLetter text => text
  | characterRange => "%c arg not in range(0x110000)"
  | unpackSource typeName => s!"cannot unpack non-iterable {typeName} object"
  | unpackFew expected found =>
    s!"not enough values to unpack (expected {expected}, got {found})"
  | unpackMany expected => s!"too many values to unpack (expected {expected})"
  | alreadyRunning => "generator already executing"
  | tooDeep => "maximum recursion depth exceeded"

/-- The message of a failure that is reported by itself: a missing key is given as it is, where
messages about expressions show it in quotes. -/
def bareMessage : Failure → String
  | missingKey key _ => key
  | other => other.message

def kind? : Failure → Option FailureKind
  | compile _ => none
  | rejected rejection => some rejection.kind
  | refused refusal => some refusal.kind
  | raised _ => some .value
  | unknownOutput _ => some .value
  | outputMissing => some .assertion
  | unboundName _ => some .name
  | unboundOwn _ => some .unbound
  | unboundOuter _ => some .name
  | missingKey _ _ => some .key
  | missingLongKey => some .key
  | indexRange _ => some .index
  | indexTooLarge => some .index
  | divisionByZero _ => some .arithmetic
  | noAttribute _ _ => some .attributeMissing
  | noClassAttribute _ _ => some .attributeMissing
  | noWord _ => some .attributeMissing
  | sliceStep => some .value
  | rangeStep => some .value
  | integerText _ _ => some .value
  | integerBase => some .value
  | realText _ => some .value
  | integerDigits _ => some .value
  | nullInCode => some .value
  | nullInPath => some .value
  | integerLength => some .value
  | integerOfReal _ overflow => some (if overflow then .overflow else .value)
  | invalidWord _ _ => some .value
  | tooLarge => some .overflow
  | quotientTooLarge => some .overflow
  | countTooLarge => some .overflow
  | repeatedTooLong => some .overflow
  | lengthTooLarge => some .overflow
  | noRoom => some .memory
  | unpackFew _ _ => some .value
  | patternLetter _ => some .value
  | characterRange => some .overflow
  | unpackMany _ => some .value
  | alreadyRunning => some .value
  | tooDeep => some .recursion
  | _ => some .type

def kindName : Failure → String
  | compile error => error.cause.kindName
  | other => (other.kind?.map FailureKind.text).getD ""

/-- Whether a failure says that a value has a wrong type or is no legal value. -/
def blamesValue (failure : Failure) : Bool :=
  failure.kind? == some .type || failure.kind? == some .value

end Failure

end TypedMarkup
