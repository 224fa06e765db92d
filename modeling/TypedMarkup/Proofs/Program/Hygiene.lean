import TypedMarkup.Compile
import TypedMarkup.Proofs.Program.Fragments
import TypedMarkup.Proofs.Success
import TypedMarkup.Proofs.Table

/-!
Contract: which of the names that a written program looks up are names it uses by itself.

Owns: the names in the scaffolding of every statement and the theorem on the names that look-up
lines assign. An assigned name is local to the whole function, so a line of scaffolding that uses
the same name for something else finds it unassigned or assigned anew. Reserved names are refused
before; what is left are two names of the host language that the scaffolding calls.

Does not own: the names that host code uses.
-/

namespace TypedMarkup

namespace Program

/-! ## The names of the scaffolding -/

theorem namesIn_variableName_append (index : Nat) {text : String}
    (apart : beginsApart text = true) :
    namesIn (variableName index ++ text) = variableName index :: namesIn text := by
  rw [namesIn_append_of_beginsApart apart, namesIn_variableName, List.singleton_append]

theorem namesIn_number_append (number : Nat) {text : String} (apart : beginsApart text = true) :
    namesIn (toString number ++ text) = namesIn text := by
  rw [namesIn_append_of_beginsApart apart, namesIn_number, List.nil_append]

theorem namesIn_positionCode (position : Position) :
    namesIn (positionCode position) = ["_Position"] := by
  have written : positionCode position = "_Position(" ++ (toString position.line ++ (", " ++
      (toString position.column ++ (", " ++ (toString position.offset ++ ")"))))) := by
    simp only [← String.append_assoc]
    rfl
  have comma : endsApart ", " = true ∧ beginsApart ", " = true := by decide
  rw [written, namesIn_append_of_endsApart (by decide),
    namesIn_number_append _ (beginsApart_append comma.2 _), namesIn_append_of_endsApart comma.1,
    namesIn_number_append _ (beginsApart_append comma.2 _), namesIn_append_of_endsApart comma.1,
    namesIn_number_append _ (by decide)]
  decide

theorem namesIn_spanCode (span : Span) :
    namesIn (spanCode span) = ["_Span", "_Position", "_Position"] := by
  rw [spanCode, namesIn_append_of_beginsApart (by decide), namesIn_append_of_endsApart,
    namesIn_append_of_beginsApart (by decide), namesIn_append_of_endsApart (by decide),
    namesIn_positionCode, namesIn_positionCode]
  · decide
  · exact endsApart_append _ (by decide)

theorem namesIn_commaSeparated (indices : List Nat) :
    namesIn (commaSeparated (indices.map variableName)) = indices.map variableName := by
  induction indices with
  | nil => decide
  | cons index rest ih =>
    cases rest with
    | nil =>
      rw [commaSeparated, List.map_singleton, String.intercalate_singleton,
        namesIn_variableName]
    | cons second others =>
      have further :
          namesIn (", ".intercalate (variableName second :: others.map variableName)) =
            variableName second :: others.map variableName := ih
      have comma : namesIn ", " = [] := by decide
      rw [commaSeparated, List.map_cons, List.map_cons, String.intercalate_cons_cons,
        namesIn_append_of_endsApart (endsApart_append _ (by decide)),
        namesIn_variableName_append _ (by decide), comma, further, List.singleton_append]

/-! ## The variables of a statement -/

namespace Statement

/-- The variable that a statement belongs to. -/
def target : Statement → Nat
  | create index _ => index
  | parseAttribute index _ _ => index
  | coerceAttribute index _ _ => index
  | setData index _ _ => index
  | setEvent index _ _ => index
  | setRequired index _ => index
  | append index _ => index
  | extend index _ => index
  | take index _ => index

/-- The variables that a statement adds as children. -/
def arguments : Statement → List Nat
  | setRequired _ children => children
  | append _ child => child.index?.toList
  | _ => []

def mentions (statement : Statement) : List Nat := statement.target :: statement.arguments

/-- Whether a statement computes a data value from an expression. -/
def computesData : Statement → Bool
  | setData _ _ (.expression _) => true
  | _ => false

end Statement

/-- Names, the programs' own ones apart. -/
def foreign (names : List String) : List String :=
  names.filter fun name => !ownNames.contains name

/-- The names that the scaffolding of parts uses, the programs' own names apart. -/
def otherNames (fragments : List Fragment) : List String := foreign (scaffoldNames fragments)

theorem foreign_append (first second : List String) :
    foreign (first ++ second) = foreign first ++ foreign second :=
  List.filter_append first second

theorem otherNames_nil : otherNames [] = [] := by decide

theorem otherNames_append (first second : List Fragment) :
    otherNames (first ++ second) = otherNames first ++ otherNames second := by
  rw [otherNames, scaffoldNames_append, foreign_append, otherNames, otherNames]

theorem otherNames_flatMap {α : Type} (parts : α → List Fragment) (items : List α) :
    otherNames (items.flatMap parts) = items.flatMap fun item => otherNames (parts item) := by
  rw [otherNames, scaffoldNames_flatMap, foreign, List.filter_flatMap]
  rfl

theorem otherNames_cons (fragment : Fragment) (rest : List Fragment) :
    otherNames (fragment :: rest) = foreign (namesIn fragment.bare) ++ otherNames rest := by
  rw [otherNames, scaffoldNames_cons, foreign_append, otherNames]

theorem foreign_variableNames (indices : List Nat) :
    foreign (indices.map variableName) = indices.map variableName := by
  have second : ownNames.all (fun name => name.toList.tail.head? != some 'e') = true := by decide
  refine List.filter_eq_self.mpr (List.forall_mem_map.mpr fun index _ => ?_)
  rw [Bool.not_eq_true', Bool.eq_false_iff]
  intro contained
  have other := List.all_eq_true.mp second _ (List.contains_iff_mem.mp contained)
  simp [variableName_toList] at other

theorem foreign_variable (index : Nat) {text : String} (begins : beginsApart text = true)
    (plain : foreign (namesIn text) = []) :
    foreign (namesIn (variableName index ++ text)) = [variableName index] := by
  rw [namesIn_variableName_append index begins, ← List.singleton_append, foreign_append, plain]
  exact (List.append_nil _).trans (foreign_variableNames [index])

theorem foreign_output (output : Option OutputType) :
    foreign (namesIn (outputCode output)) = [] := by
  cases output with
  | none => decide
  | some type => cases type <;> decide

theorem otherNames_expression (code : Expression) : otherNames (expressionFragments code) = [] := by
  have path : otherNames (expressionFragments (.path "" [] ⟨.origin, .origin⟩)) = [] := by decide
  have host : otherNames [.host ""] = [] := by decide
  cases code with
  | path head members span => exact path
  | call | group => exact host

theorem otherNames_splice (code : Expression) : otherNames (spliceFragments code) = [] := by
  have place : namesIn (", " ++ spanCode code.span ++ ")") =
      ["_Span", "_Position", "_Position"] := by
    rw [namesIn_append_of_beginsApart (by decide), namesIn_append_of_endsApart (by decide),
      namesIn_spanCode]
    decide
  rw [spliceFragments, otherNames_append, otherNames_cons, otherNames_cons, otherNames_expression,
    Fragment.bare, Fragment.bare, place]
  decide

theorem otherNames_operand {closing : String} (apart : endsApart closing = true)
    (begins : beginsApart closing = true) (nameless : namesIn closing = []) (operand : Operand) :
    otherNames (operand.fragments closing apart) =
      operand.index?.toList.map variableName := by
  have plain : foreign (namesIn closing) = [] := by rw [nameless]; rfl
  cases operand with
  | made index =>
    rw [Operand.fragments, otherNames_cons, Fragment.bare, foreign_variable index begins plain]
    rfl
  | text value =>
    have closed : namesIn (")" ++ closing) = [] := by
      rw [namesIn_append_of_beginsApart begins, nameless]
      decide
    have opened : foreign (namesIn "_TextNode(") = [] := by decide
    have blank : foreign (namesIn " ") = [] := by decide
    simp only [Operand.fragments, otherNames_cons, Fragment.bare, closed, opened, blank]
    rfl

/-- Apart from the programs' own names, the scaffolding of a statement uses the variables of the
statement, and `str` to convert a data value. -/
theorem otherNames_fragments (output : Option OutputType) (statement : Statement) :
    otherNames (statement.fragments output) = statement.mentions.map variableName ++
      if statement.computesData then ["str"] else [] := by
  have blank : foreign (namesIn " ") = [] := by decide
  have comma : foreign (namesIn ", ") = [] := by decide
  have closed : foreign (namesIn ")") = [] := by decide
  have made : foreign (namesIn ("], " ++ outputCode output ++ ")")) = [] := by
    rw [namesIn_append_of_beginsApart (by decide), namesIn_append_of_endsApart (by decide),
      foreign_append, foreign_append, foreign_output]
    decide
  have bound : foreign (namesIn (outputCode output ++ ", ")) = [] := by
    rw [namesIn_append_of_beginsApart (by decide), foreign_append, foreign_output]
    decide
  have listed (children : List Nat) :
      foreign (namesIn (commaSeparated (children.map variableName) ++ "])")) =
        children.map variableName := by
    rw [namesIn_append_of_beginsApart (by decide), namesIn_commaSeparated, foreign_append,
      foreign_variableNames]
    exact List.append_nil _
  cases statement with
  | setData index name source =>
    cases source <;>
      simp (disch := decide) only [Statement.fragments, dataFragments, afterVariable,
        otherNames_cons, otherNames_append, otherNames_nil, Fragment.bare, foreign_variable,
        otherNames_expression, blank, comma, closed] <;> rfl
  | setEvent index event source =>
    cases source <;>
      simp (disch := decide) only [Statement.fragments, handlerFragments, afterVariable,
        otherNames_cons, otherNames_append, otherNames_nil, Fragment.bare, foreign_variable,
        otherNames_expression, blank, comma, bound] <;> rfl
  | append index child =>
    rw [Statement.fragments, otherNames_cons,
      otherNames_operand (by decide) (by decide) (by decide)]
    simp (disch := decide) only [afterVariable, Fragment.bare, foreign_variable]
    exact (List.append_nil _).symm
  | setRequired index children =>
    simp (disch := decide) only [Statement.fragments, afterVariable, otherNames_cons,
      otherNames_nil, Fragment.bare, foreign_variable, listed]
    rfl
  | _ =>
    simp (disch := decide) only [Statement.fragments, afterVariable, otherNames_cons,
      otherNames_append, otherNames_nil, Fragment.bare, foreign_variable, otherNames_expression,
      otherNames_splice, blank, comma, closed, made]
    rfl

theorem mem_scaffoldNames_iff {fragments : List Fragment} {name : String}
    (free : isReserved name = false) :
    name ∈ scaffoldNames fragments ↔ name ∈ otherNames fragments := by
  have notOwn : ownNames.contains name = false := (Bool.or_eq_false_iff.mp free).1
  rw [otherNames, foreign, List.mem_filter, notOwn]
  simp

theorem otherNames_line (fragments : List Fragment) :
    otherNames (lineFragments fragments) = otherNames fragments := by
  have indent : foreign (namesIn "    ") = [] := by decide
  have lineEnd : foreign (namesIn "\n") = [] := by decide
  simp only [lineFragments, List.cons_append, otherNames_cons, otherNames_append, otherNames_nil,
    Fragment.bare, indent, lineEnd, List.nil_append, List.append_nil]

theorem not_mem_scaffoldNames_lookups (program : Program) {name : String}
    (free : isReserved name = false) : name ∉ scaffoldNames program.lookups := by
  have plain : otherNames program.lookups = [] := by
    rw [lookups, otherNames_flatMap, List.flatMap_eq_nil_iff]
    intro name _
    rw [lookupFragments, otherNames_line]
    simp only [otherNames_cons, Fragment.bare]
    decide
  rw [mem_scaffoldNames_iff free, plain]
  exact List.not_mem_nil

def computesData (program : Program) : Bool :=
  program.statements.any Statement.computesData

theorem mem_scaffoldNames_body (program : Program) {name : String}
    (free : isReserved name = false) :
    name ∈ scaffoldNames program.body ↔ name = "str" ∧ program.computesData = true := by
  have indent : foreign (namesIn "    ") = [] := by decide
  have returning : foreign (namesIn "return ") = [] := by decide
  have different (indices : List Nat) : name ∉ indices.map variableName := by
    intro member
    obtain ⟨index, -, rfl⟩ := List.mem_map.mp member
    rw [isReserved_variableName] at free
    cases free
  simp only [mem_scaffoldNames_iff free, body, otherNames_append, otherNames_flatMap,
    otherNames_line, otherNames_cons, Fragment.bare, indent, returning, List.nil_append,
    otherNames_operand (by decide) (by decide : beginsApart "\n" = true) (by decide),
    otherNames_fragments, List.mem_append, List.mem_flatMap, different, false_or, or_false,
    computesData, List.any_eq_true, List.mem_ite_nil_right, List.mem_singleton]
  constructor
  · rintro ⟨statement, member, computes, same⟩
    exact ⟨same, statement, member, computes⟩
  · rintro ⟨same, statement, member, computes⟩
    exact ⟨statement, member, computes, same⟩

/-! ## The names that are looked up -/

/-- The parameters of the written function. -/
def parameters : List String := ["scope", "registry"]

theorem scaffoldNames_prologue : scaffoldNames prologue =
    ["_registry", "_default_registry", "registry", "registry",
      "_ns", "scope", "isinstance", "scope", "_Scope", "_Scope", "scope"] := by
  decide +kernel

theorem mem_scaffoldNames_prologue {name : String} (free : isReserved name = false)
    (given : name ∉ parameters) : name ∈ scaffoldNames prologue ↔ name = "isinstance" := by
  have each : ∀ other ∈ scaffoldNames prologue,
      isReserved other = true ∨ other ∈ parameters ∨ other = "isinstance" := by
    rw [scaffoldNames_prologue]
    decide
  constructor
  · intro member
    rcases each name member with reserved | parameter | same
    · rw [reserved] at free
      cases free
    · exact absurd parameter given
    · exact same
  · rintro rfl
    rw [scaffoldNames_prologue]
    decide

theorem codeNames_free {code : Expression} {names : List String}
    (read : codeNames code = .ok names) : ∀ name ∈ names, isReserved name = false := by
  unfold codeNames at read
  split at read
  · cases read
    exact List.forall_mem_nil _
  · obtain ⟨found, _, checked⟩ := bind_eq_ok.mp read
    split at checked
    · cases checked
    · next none =>
      cases pure_eq_ok.mp checked
      intro name member
      simpa using List.find?_eq_none.mp none name member

end Program

theorem Plan.names_free {plan : Plan} {program : Program} (made : plan.program = .ok program) :
    ∀ name ∈ program.names, Program.isReserved name = false := by
  obtain ⟨names, read, same⟩ := bind_eq_ok.mp made
  cases pure_eq_ok.mp same
  intro name member
  obtain ⟨list, among, inside⟩ := List.mem_flatten.mp (Table.mem_distinct.mp member)
  obtain ⟨code, _, codeRead⟩ := exists_left_of_mem (mapM_eq_ok.mp read) among
  exact Program.codeNames_free codeRead name inside

/-- Behind its first two lines a written program does not read its parameters any more. Of the names
that it looks up for host code, its own scaffolding uses none but two: `isinstance`, and `str` where
a data value is computed. -/
theorem scaffolding_shares_only_two_names {plan : Plan} {filename text : String}
    (emitted : plan.emit filename = .ok text) :
    ∃ program, plan.program = .ok program ∧
      text = Program.header filename ++ "\ndef build(scope=None, registry=None):\n" ++
        Program.writtenText (Program.prologue ++ program.lookups ++ program.body) ∧
      (∀ parameter ∈ Program.parameters,
        parameter ∉ Program.scaffoldNames (program.lookups ++ program.body)) ∧
      ∀ name ∈ program.names, name ∉ Program.parameters →
        (name ∈ Program.scaffoldNames (Program.prologue ++ program.lookups ++ program.body) ↔
          name = "isinstance" ∨ name = "str" ∧ program.computesData = true) := by
  obtain ⟨program, made, rfl⟩ := map_eq_ok.mp emitted
  refine ⟨program, made, program.text_eq filename, ?_, ?_⟩
  · intro parameter given
    obtain ⟨free, different⟩ : Program.isReserved parameter = false ∧ parameter ≠ "str" := by
      revert parameter
      decide
    rw [Program.scaffoldNames_append, List.mem_append, Program.mem_scaffoldNames_body program free]
    rintro (lookedUp | ⟨same, _⟩)
    · exact Program.not_mem_scaffoldNames_lookups program free lookedUp
    · exact different same
  · intro name member given
    have free := Plan.names_free made name member
    rw [Program.scaffoldNames_append, Program.scaffoldNames_append, List.mem_append,
      List.mem_append, Program.mem_scaffoldNames_body program free,
      Program.mem_scaffoldNames_prologue free given,
      or_iff_left (Program.not_mem_scaffoldNames_lookups program free)]

/-- A body with a computed data value, and a block that uses the name of the conversion. -/
def convertedBody : String :=
  "<body data-note=\x7b f(x) \x7d>\x7b str(y) \x7d</body>"

theorem convertedBody_shares_the_conversion :
    ∃ registry plan text,
      Registry.ofDeclarations (Html.structureElements ++ Html.metadataElements) = .ok registry ∧
      compile convertedBody registry none = .ok plan ∧ plan.emit "page" = .ok text ∧
      ∃ program, plan.program = .ok program ∧ program.names = ["f", "x", "str", "y"] ∧
        "str" ∈ Program.scaffoldNames (Program.prologue ++ program.lookups ++ program.body) ∧
        "f" ∉ Program.scaffoldNames (Program.prologue ++ program.lookups ++ program.body) := by
  have emits : yields (fun registry => yields (fun plan =>
      yields (fun _ => true) (plan.emit "page") &&
        yields (fun program => program.names == ["f", "x", "str", "y"] && program.computesData)
          plan.program)
      (compile convertedBody registry none))
      (Registry.ofDeclarations (Html.structureElements ++ Html.metadataElements)) = true := by
    decide +kernel
  obtain ⟨registry, declared, compiles⟩ := exists_of_yields emits
  obtain ⟨plan, compiled, both⟩ := exists_of_yields compiles
  rw [Bool.and_eq_true] at both
  obtain ⟨text, emitted, -⟩ := exists_of_yields both.1
  obtain ⟨program, made, tested⟩ := exists_of_yields both.2
  rw [Bool.and_eq_true, beq_iff_eq] at tested
  obtain ⟨other, madeToo, -, -, shared⟩ := scaffolding_shares_only_two_names emitted
  cases made.symm.trans madeToo
  refine ⟨registry, plan, text, declared, compiled, emitted, program, made, tested.1, ?_, ?_⟩
  · rw [shared "str" (by rw [tested.1]; decide) (by decide)]
    exact .inr ⟨rfl, tested.2⟩
  · rw [shared "f" (by rw [tested.1]; decide) (by decide)]
    simp

/-- The name of a test that the second line of every written program makes is looked up behind that
line, so the test finds it unassigned. -/
theorem isinstance_is_looked_up_behind_its_use :
    ∃ plan text, compile "\x7bisinstance(x, y)\x7d" .html none = .ok plan ∧
      plan.emit "page" = .ok text ∧
      ∃ program, plan.program = .ok program ∧ "isinstance" ∈ program.names ∧
        "isinstance" ∉ Program.parameters ∧
        "isinstance" ∈ Program.scaffoldNames Program.prologue := by
  have emits : yields (fun plan => yields (fun _ => true) (plan.emit "page") &&
      yields (fun program => program.names.contains "isinstance") plan.program)
      (compile "\x7bisinstance(x, y)\x7d" .html none) = true := by
    decide +kernel
  obtain ⟨plan, compiled, both⟩ := exists_of_yields emits
  rw [Bool.and_eq_true] at both
  obtain ⟨text, emitted, -⟩ := exists_of_yields both.1
  obtain ⟨program, made, named⟩ := exists_of_yields both.2
  refine ⟨plan, text, compiled, emitted, program, made, List.contains_iff_mem.mp named,
    by decide, ?_⟩
  rw [Program.scaffoldNames_prologue]
  decide

end TypedMarkup
