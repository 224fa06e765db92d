import TypedMarkup.Program.Text
import TypedMarkup.Proofs.Token.Words

/-!
Contract: the parts that the text of a written program is made of, and the names in it.

Owns: `Program.namesIn`, the names in a text of host code, `Program.Fragment`, a part of the written
function, and the proof that the parts make up the text. Every part of the scaffolding ends where a
word is complete, so that no name runs across parts and the names of a row of parts are those of its
parts.

Does not own: which names these are.
-/

namespace TypedMarkup

namespace Program

/-! ## Names in a text -/

/-- The name that a word stands for: a word behind a dot names a member, and neither a number nor a
reserved word is a name. -/
def nameOf (member : Bool) (word : List Char) : List String :=
  if member || !word.head?.any beginsIdentifier || Host.isReservedWord (String.ofList word) then []
  else [String.ofList word]

/-- The names in a text, behind a word already begun. -/
def namesFrom (member : Bool) (begun : List Char) : List Char → List String
  | [] => nameOf member begun
  | character :: rest =>
    if continuesIdentifier character then namesFrom member (begun ++ [character]) rest
    else nameOf member begun ++ namesFrom (character == '.') [] rest

def namesIn (text : String) : List String :=
  namesFrom false [] text.toList

/-- A text begins with a character that is not part of a word. -/
def beginsApart (text : String) : Bool :=
  text.toList.head?.any fun character => !continuesIdentifier character

/-- A text ends with a character that is not part of a word, nor of what a word behind it means. -/
def endsApart (text : String) : Bool :=
  text.toList.getLast?.any fun character => !continuesIdentifier character && character != '.'

theorem nameOf_nil (member : Bool) : nameOf member [] = [] := by
  simp [nameOf]

theorem namesFrom_append_cons {separator : Char} (apart : continuesIdentifier separator = false)
    (member : Bool) (begun before after : List Char) :
    namesFrom member begun (before ++ separator :: after) =
      namesFrom member begun before ++ namesFrom (separator == '.') [] after := by
  induction before generalizing member begun with
  | nil => simp [namesFrom, apart]
  | cons character rest ih =>
    rw [List.cons_append, namesFrom, namesFrom]
    by_cases continues : continuesIdentifier character = true
    · rw [if_pos continues, if_pos continues, ih]
    · rw [if_neg continues, if_neg continues, ih, List.append_assoc]

theorem namesFrom_word {word : List Char}
    (continues : ∀ character ∈ word, continuesIdentifier character = true) (member : Bool)
    (begun : List Char) : namesFrom member begun word = nameOf member (begun ++ word) := by
  induction word generalizing begun with
  | nil => rw [namesFrom, List.append_nil]
  | cons character rest ih =>
    obtain ⟨here, further⟩ := List.forall_mem_cons.mp continues
    rw [namesFrom, if_pos here, ih further, ← List.append_cons]

theorem namesIn_append_of_beginsApart {second : String} (apart : beginsApart second = true)
    (first : String) : namesIn (first ++ second) = namesIn first ++ namesIn second := by
  rw [beginsApart, Option.any_eq_true] at apart
  obtain ⟨separator, begins, outside⟩ := apart
  obtain ⟨rest, split⟩ := List.head?_eq_some_iff.mp begins
  have outside : continuesIdentifier separator = false := by simpa using outside
  rw [namesIn, namesIn, namesIn, String.toList_append, split, namesFrom_append_cons outside]
  congr 1
  rw [namesFrom, if_neg (by simp [outside]), nameOf_nil, List.nil_append]

theorem namesIn_append_of_endsApart {first : String} (apart : endsApart first = true)
    (second : String) : namesIn (first ++ second) = namesIn first ++ namesIn second := by
  rw [endsApart, Option.any_eq_true] at apart
  obtain ⟨separator, ends, outside⟩ := apart
  obtain ⟨before, split⟩ := List.getLast?_eq_some_iff.mp ends
  obtain ⟨outside, noDot⟩ : continuesIdentifier separator = false ∧ (separator == '.') = false := by
    simpa using outside
  rw [namesIn, namesIn, namesIn, String.toList_append, split, List.append_assoc,
    List.singleton_append, namesFrom_append_cons outside, namesFrom_append_cons outside, noDot,
    namesFrom, nameOf_nil, List.append_nil]

theorem beginsApart_append {first : String} (apart : beginsApart first = true) (second : String) :
    beginsApart (first ++ second) = true := by
  rw [beginsApart, Option.any_eq_true] at apart ⊢
  obtain ⟨separator, begins, outside⟩ := apart
  refine ⟨separator, ?_, outside⟩
  rw [String.toList_append, List.head?_append, begins, Option.some_or]

theorem endsApart_append (first : String) {second : String} (apart : endsApart second = true) :
    endsApart (first ++ second) = true := by
  rw [endsApart, Option.any_eq_true] at apart ⊢
  obtain ⟨separator, ends, outside⟩ := apart
  refine ⟨separator, ?_, outside⟩
  rw [String.toList_append, List.getLast?_append, ends, Option.some_or]

/-! ## Numbers and variables -/

theorem isDigit_of_mem_toString {number : Nat} {character : Char}
    (member : character ∈ (toString number).toList) : character.isDigit = true := by
  rw [Nat.toString_eq_repr, Nat.toList_repr] at member
  exact Nat.isDigit_of_mem_toDigits (by decide) (by decide) member

theorem namesIn_number (number : Nat) : namesIn (toString number) = [] := by
  have digits : ∀ character ∈ (toString number).toList, character.isDigit = true :=
    fun _ => isDigit_of_mem_toString
  rw [namesIn, namesFrom_word fun character member => by
    simp [continuesIdentifier, digits character member], List.nil_append]
  cases split : (toString number).toList with
  | nil => exact nameOf_nil false
  | cons first rest =>
    have digit := digits first (split ▸ List.mem_cons_self)
    simp [nameOf, not_beginsIdentifier_of_isDigit digit]

theorem variableName_toList (index : Nat) :
    (variableName index).toList = '_' :: 'e' :: (toString index).toList := by
  rw [variableName, String.toList_append]
  rfl

theorem isReserved_variableName (index : Nat) : isReserved (variableName index) = true := by
  have digits : (toString index).toList.all Char.isDigit = true :=
    List.all_eq_true.mpr fun _ => isDigit_of_mem_toString
  have present : (toString index).toList.isEmpty = false := by simp
  rw [isReserved, variableName_toList]
  simp only [digits, present, Bool.not_false, Bool.and_self, Bool.or_true]

theorem namesIn_variableName (index : Nat) :
    namesIn (variableName index) = [variableName index] := by
  have continues : ∀ character ∈ (variableName index).toList,
      continuesIdentifier character = true := by
    rw [variableName_toList]
    refine List.forall_mem_cons.mpr ⟨rfl, List.forall_mem_cons.mpr ⟨rfl, ?_⟩⟩
    intro character member
    simp [continuesIdentifier, isDigit_of_mem_toString member]
  have notReserved : Host.isReservedWord (variableName index) = false := by
    have initial : Host.reservedWords.all (fun word => word.toList.head? != some '_') = true := by
      decide
    have own : (variableName index).toList.head? = some '_' := by rw [variableName_toList]; rfl
    rw [Host.isReservedWord, Bool.eq_false_iff]
    intro contained
    simpa [own] using List.all_eq_true.mp initial _ (List.contains_iff_mem.mp contained)
  rw [namesIn, namesFrom_word continues, List.nil_append, nameOf, String.ofList_toList, notReserved,
    variableName_toList]
  rfl

/-! ## The parts of the written function -/

/-- A part of the written function: scaffolding, which ends where a word is complete, a literal, a
tuple of literals, host code as it stands, or the name that a look-up line assigns. -/
inductive Fragment where
  | scaffold (text : String) (apart : endsApart text = true)
  | literal (value : String)
  | literals (values : List String)
  | host (code : String)
  | assigned (name : String)

namespace Fragment

/-- The text of a part. -/
def written : Fragment → String
  | scaffold text _ => text
  | literal value => Text.quoted value
  | literals values => tupleText (values.map Text.quoted)
  | host code => code
  | assigned name => name

/-- The scaffolding of a part: whatever else it is, it is left blank. -/
def bare : Fragment → String
  | scaffold text _ => text
  | _ => " "

theorem endsApart_bare (fragment : Fragment) : endsApart fragment.bare = true := by
  have blank : endsApart " " = true := by decide
  cases fragment with
  | scaffold text apart => exact apart
  | literal | literals | host | assigned => exact blank

end Fragment

def writtenText (fragments : List Fragment) : String :=
  String.join (fragments.map Fragment.written)

/-- The names that the scaffolding of parts in a row uses. -/
def scaffoldNames (fragments : List Fragment) : List String :=
  namesIn (String.join (fragments.map Fragment.bare))

@[simp] theorem writtenText_nil : writtenText [] = "" := rfl

@[simp] theorem writtenText_cons (fragment : Fragment) (rest : List Fragment) :
    writtenText (fragment :: rest) = fragment.written ++ writtenText rest := by
  rw [writtenText, List.map_cons, String.join_cons, writtenText]

@[simp] theorem writtenText_append (first second : List Fragment) :
    writtenText (first ++ second) = writtenText first ++ writtenText second := by
  rw [writtenText, List.map_append, String.join_append, writtenText, writtenText]

theorem writtenText_flatMap {α : Type} (parts : α → List Fragment) (items : List α) :
    writtenText (items.flatMap parts) =
      String.join (items.map fun item => writtenText (parts item)) := by
  induction items with
  | nil => rfl
  | cons item rest ih =>
    rw [List.flatMap_cons, writtenText_append, ih, List.map_cons,
      String.join_cons]

@[simp] theorem scaffoldNames_cons (fragment : Fragment) (rest : List Fragment) :
    scaffoldNames (fragment :: rest) = namesIn fragment.bare ++ scaffoldNames rest := by
  rw [scaffoldNames, List.map_cons, String.join_cons,
    namesIn_append_of_endsApart fragment.endsApart_bare, scaffoldNames]

@[simp] theorem scaffoldNames_append (first second : List Fragment) :
    scaffoldNames (first ++ second) = scaffoldNames first ++ scaffoldNames second := by
  induction first with
  | nil => rfl
  | cons fragment rest ih =>
    rw [List.cons_append, scaffoldNames_cons, scaffoldNames_cons, ih,
      List.append_assoc]

theorem scaffoldNames_flatMap {α : Type} (parts : α → List Fragment) (items : List α) :
    scaffoldNames (items.flatMap parts) = items.flatMap fun item => scaffoldNames (parts item) := by
  induction items with
  | nil => rfl
  | cons item rest ih =>
    rw [List.flatMap_cons, scaffoldNames_append, ih, List.flatMap_cons]

def expressionFragments : Expression → List Fragment
  | .path head members _ =>
    [.scaffold "_resolve_path(_ns, " (by decide), .literals (head :: members),
      .scaffold ")" (by decide)]
  | .call _ code _ => [.host code]
  | .group _ code _ => [.host code]

/-- The parts of the nodes that an expression stands for. -/
def spliceFragments (code : Expression) : List Fragment :=
  .scaffold "_splice_items(" (by decide) :: expressionFragments code ++
    [.scaffold (", " ++ spanCode code.span ++ ")") (endsApart_append _ (by decide))]

def dataFragments : TextSource → List Fragment
  | .literal written => [.literal written]
  | .expression code =>
    .scaffold "str(" (by decide) :: expressionFragments code ++ [.scaffold ")" (by decide)]

def handlerFragments : TextSource → List Fragment
  | .literal written => [.literal written]
  | .expression code => expressionFragments code

/-- The parts of an operand and of the scaffolding that closes it. -/
def Operand.fragments (closing : String) (apart : endsApart closing = true) :
    Operand → List Fragment
  | .made index => [.scaffold (variableName index ++ closing) (endsApart_append _ apart)]
  | .text value =>
    [.scaffold "_TextNode(" (by decide), .literal value,
      .scaffold (")" ++ closing) (endsApart_append _ apart)]

/-- The scaffolding that begins with a variable. -/
def afterVariable (index : Nat) (text : String) (apart : endsApart text = true) : Fragment :=
  .scaffold (variableName index ++ text) (endsApart_append _ apart)

def Statement.fragments (output : Option OutputType) : Statement → List Fragment
  | create index schemaName =>
    [afterVariable index " = _TypedElement(_registry[" (by decide), .literal schemaName,
      .scaffold ("], " ++ outputCode output ++ ")") (endsApart_append _ (by decide))]
  | parseAttribute index name literal =>
    [afterVariable index ".parse_attribute(" (by decide), .literal name,
      .scaffold ", " (by decide), .literal literal, .scaffold ")" (by decide)]
  | coerceAttribute index name expression =>
    [afterVariable index ".coerce_attribute(" (by decide), .literal name,
      .scaffold ", " (by decide)] ++ expressionFragments expression ++
      [.scaffold ")" (by decide)]
  | setData index name source =>
    [afterVariable index ".set_data(" (by decide), .literal name, .scaffold ", " (by decide)] ++
      dataFragments source ++ [.scaffold ")" (by decide)]
  | setEvent index event source =>
    [afterVariable index ".set_event(_bind(" (by decide),
      .scaffold (outputCode output ++ ", ") (endsApart_append _ (by decide)), .literal event,
      .scaffold ", " (by decide)] ++ handlerFragments source ++ [.scaffold "))" (by decide)]
  | setRequired index children =>
    [afterVariable index ".set_required([" (by decide),
      .scaffold (commaSeparated (children.map variableName) ++ "])")
        (endsApart_append _ (by decide))]
  | append index child =>
    afterVariable index ".append(" (by decide) :: child.fragments ")" (by decide)
  | extend index expression =>
    afterVariable index ".extend(" (by decide) :: spliceFragments expression ++
      [.scaffold ")" (by decide)]
  | take index expression =>
    [.scaffold "(" (by decide), afterVariable index ",) = " (by decide)] ++
      spliceFragments expression

/-- The parts of a line of the function. -/
def lineFragments (fragments : List Fragment) : List Fragment :=
  .scaffold "    " (by decide) :: fragments ++ [.scaffold "\n" (by decide)]

/-- The parts of the line that looks up a name. -/
def lookupFragments (name : String) : List Fragment :=
  lineFragments [.assigned name, .scaffold " = _lookup(_ns, " (by decide), .literal name,
    .scaffold ")" (by decide)]

/-- The parts of the lines before the first look-up. -/
def prologue : List Fragment := [
  .scaffold (bodyLine "_registry = _default_registry() if registry is None else registry")
    (by decide),
  .scaffold (bodyLine "_ns = scope if isinstance(scope, _Scope) else _Scope(scope)") (by decide)]

/-- The parts of the look-up lines of a program. -/
def lookups (program : Program) : List Fragment :=
  program.names.flatMap lookupFragments

/-- The parts of the lines behind the last look-up. -/
def body (program : Program) : List Fragment :=
  (program.statements.flatMap fun statement =>
    lineFragments (statement.fragments program.output)) ++
    .scaffold "    " (by decide) :: .scaffold "return " (by decide) ::
      program.result.fragments "\n" (by decide)

/-! ## The parts make up the written program -/

theorem writtenText_expressionFragments (code : Expression) :
    writtenText (expressionFragments code) = expressionCode code := by
  cases code with
  | path | call | group => rfl

theorem writtenText_spliceFragments (code : Expression) :
    writtenText (spliceFragments code) = spliceCode code := by
  have unfolded : spliceCode code = "_splice_items(" ++ expressionCode code ++ ", " ++
      spanCode code.span ++ ")" := rfl
  simp [unfolded, spliceFragments, Fragment.written, writtenText_expressionFragments,
    String.append_assoc]

theorem writtenText_dataFragments (source : TextSource) :
    writtenText (dataFragments source) = dataCode source := by
  cases source with
  | literal written => simp [dataFragments, dataCode, Fragment.written]
  | expression code =>
    simp [dataFragments, dataCode, Fragment.written, writtenText_expressionFragments,
      String.append_assoc]

theorem writtenText_handlerFragments (source : TextSource) :
    writtenText (handlerFragments source) = handlerCode source := by
  cases source with
  | literal written => simp [handlerFragments, handlerCode, Fragment.written]
  | expression code => exact writtenText_expressionFragments code

theorem writtenText_operand (closing : String) (apart : endsApart closing = true)
    (operand : Operand) :
    writtenText (operand.fragments closing apart) = operand.code ++ closing := by
  cases operand with
  | made index => simp [Operand.fragments, Operand.code, Fragment.written]
  | text value =>
    simp [Operand.fragments, Operand.code, Fragment.written, String.append_assoc]

theorem writtenText_fragments (output : Option OutputType) (statement : Statement) :
    writtenText (statement.fragments output) = statement.code output := by
  cases statement <;>
    simp [Statement.fragments, Statement.code, afterVariable, Fragment.written,
      writtenText_expressionFragments, writtenText_dataFragments, writtenText_handlerFragments,
      writtenText_operand, writtenText_spliceFragments, String.append_assoc]

theorem writtenText_lineFragments (fragments : List Fragment) :
    writtenText (lineFragments fragments) = bodyLine (writtenText fragments) := by
  simp [lineFragments, bodyLine, Fragment.written, String.append_assoc]

/-- The function of a written program is made of its parts. -/
theorem text_eq (program : Program) (filename : String) :
    program.text filename = header filename ++ "\ndef build(scope=None, registry=None):\n" ++
      writtenText (prologue ++ program.lookups ++ program.body) := by
  have lookups : writtenText program.lookups = String.join (program.names.map fun name =>
      bodyLine (name ++ " = _lookup(_ns, " ++ Text.quoted name ++ ")")) := by
    rw [Program.lookups, writtenText_flatMap]
    simp [lookupFragments, writtenText_lineFragments, Fragment.written, String.append_assoc]
  have statements : writtenText (program.statements.flatMap fun statement =>
      lineFragments (statement.fragments program.output)) =
      String.join (program.statements.map fun statement =>
        bodyLine (statement.code program.output)) := by
    simp only [writtenText_flatMap, writtenText_lineFragments, writtenText_fragments]
  rw [text, writtenText_append, writtenText_append, lookups, body, writtenText_append, statements]
  simp only [prologue, bodyLine, writtenText_cons, writtenText_nil, Fragment.written,
    writtenText_operand, String.append_assoc, String.empty_append, -String.reduceAppend]

end Program

end TypedMarkup
