import TypedMarkup.Host.Lexeme
import TypedMarkup.Host.Reserved
import TypedMarkup.Host.Term

/-!
Contract: the grammar of host expressions.

Owns: `Term.parse?`, which reads the term of host code or fails. Each rule gives what it reads and
the units behind it. From loosest to tightest: conditional and function expressions, `or`, `and`,
`not`, comparisons (in chains), sums, products, signs, and calls, attributes and subscripts.
-/

namespace TypedMarkup.Host

namespace Grammar

def symbol (written : String) : List Lexeme → Option (List Lexeme)
  | .symbol found :: rest => if found = written then some rest else none
  | _ => none

def atSymbol (written : String) (units : List Lexeme) : Bool :=
  units.head? == some (.symbol written)

def atWord (name : String) (units : List Lexeme) : Bool :=
  units.head? == some (.word name)

def word (name : String) : List Lexeme → Option (List Lexeme)
  | .word found :: rest => if found = name then some rest else none
  | _ => none

def identifier : List Lexeme → Option (String × List Lexeme)
  | .word found :: rest => if isReservedWord found then none else some (found, rest)
  | _ => none

mutual

def targetPart : (fuel : Nat) → List Lexeme → Option (Target × List Lexeme)
  | 0, _ => none
  | fuel + 1, units =>
    match units with
    | .symbol "(" :: rest =>
      if atSymbol ")" rest then some (.items [], rest.drop 1)
      else do
        let (found, behind) ← target fuel rest
        let closed ← symbol ")" behind
        return (found, closed)
    | .symbol "[" :: rest => do
      let (parts, behind) ← targetParts fuel rest
      let closed ← symbol "]" behind
      return (.items parts, closed)
    | _ => (identifier units).map fun found => (.name found.1, found.2)

/-- Reads what a loop binds; a comma makes even one part a list. -/
def target : (fuel : Nat) → List Lexeme → Option (Target × List Lexeme)
  | 0, _ => none
  | fuel + 1, units => do
    let (first, behind) ← targetPart fuel units
    if atSymbol "," behind then
      let (more, rest) ← targetParts fuel (behind.drop 1)
      return (.items (first :: more), rest)
    else return (first, behind)

/-- Reads any number of parts with commas between them; a last comma may stand. -/
def targetParts : (fuel : Nat) → List Lexeme → Option (List Target × List Lexeme)
  | 0, _ => none
  | fuel + 1, units =>
    match targetPart fuel units with
    | none => some ([], units)
    | some (first, behind) =>
      if atSymbol "," behind then do
        let (more, rest) ← targetParts fuel (behind.drop 1)
        return (first :: more, rest)
      else some ([first], behind)

end

def comparison? : List Lexeme → Option (Comparison × List Lexeme)
  | .symbol "==" :: rest => some (.equal, rest)
  | .symbol "!=" :: rest => some (.unequal, rest)
  | .symbol "<" :: rest => some (.less, rest)
  | .symbol ">" :: rest => some (.greater, rest)
  | .symbol "<=" :: rest => some (.lessEqual, rest)
  | .symbol ">=" :: rest => some (.greaterEqual, rest)
  | .word "in" :: rest => some (.member, rest)
  | .word "not" :: .word "in" :: rest => some (.nonmember, rest)
  | _ => none

def sumOperator? : List Lexeme → Option (Operator × List Lexeme)
  | .symbol "+" :: rest => some (.add, rest)
  | .symbol "-" :: rest => some (.subtract, rest)
  | _ => none

def productOperator? : List Lexeme → Option (Operator × List Lexeme)
  | .symbol "*" :: rest => some (.multiply, rest)
  | .symbol "/" :: rest => some (.divide, rest)
  | .symbol "//" :: rest => some (.floorDivide, rest)
  | .symbol "%" :: rest => some (.modulo, rest)
  | _ => none

/-- Reads texts that stand side by side as one. -/
def texts : List Lexeme → String × List Lexeme
  | .text value :: rest =>
    let more := texts rest
    (value ++ more.1, more.2)
  | units => ("", units)

/-- The arguments of a call: positional ones, then names with their values. -/
structure Arguments where
  positional : List Term
  keywords : List String
  named : List Term

/-- The parameters of a function, those with a default behind those without. -/
structure Parameters where
  plain : List String
  optional : List (String × Term)
  collector : Option String

namespace Parameters

def names (parameters : Parameters) : List String :=
  parameters.plain ++ parameters.optional.map Prod.fst

def function (parameters : Parameters) (body : Term) : Term :=
  .lambda parameters.names (parameters.optional.map Prod.snd) parameters.collector body

end Parameters

mutual

def expression : (fuel : Nat) → List Lexeme → Option (Term × List Lexeme)
  | 0, _ => none
  | fuel + 1, units =>
    if atWord "lambda" units then do
      let (parameters, behind) ← lambdaParameters fuel (units.drop 1)
      let body ← symbol ":" behind
      let (term, rest) ← expression fuel body
      return (parameters.function term, rest)
    else do
      let (consequent, behind) ← disjunction fuel units
      if atWord "if" behind then
        let (condition, behindCondition) ← disjunction fuel (behind.drop 1)
        let start ← word "else" behindCondition
        let (alternative, rest) ← expression fuel start
        return (.conditional condition consequent alternative, rest)
      else return (consequent, behind)

/-- Reads the parameters of a function, up to the colon behind them. -/
def lambdaParameters : (fuel : Nat) → List Lexeme → Option (Parameters × List Lexeme)
  | 0, _ => none
  | fuel + 1, units =>
    if atSymbol ":" units then some (⟨[], [], none⟩, units)
    else if atSymbol "*" units then do
      let (name, behind) ← identifier (units.drop 1)
      let rest := if atSymbol "," behind then behind.drop 1 else behind
      if atSymbol ":" rest then return (⟨[], [], some name⟩, rest) else none
    else do
      let (name, behindName) ← identifier units
      if atSymbol "=" behindName then
        let (value, behind) ← expression fuel (behindName.drop 1)
        let (more, rest) ← moreParameters fuel behind
        if more.plain.isEmpty then
          return ({ more with optional := (name, value) :: more.optional }, rest)
        else none
      else
        let (more, rest) ← moreParameters fuel behindName
        return ({ more with plain := name :: more.plain }, rest)

def moreParameters : (fuel : Nat) → List Lexeme → Option (Parameters × List Lexeme)
  | 0, _ => none
  | fuel + 1, units =>
    if atSymbol "," units then lambdaParameters fuel (units.drop 1)
    else if atSymbol ":" units then some (⟨[], [], none⟩, units)
    else none

def disjunction : (fuel : Nat) → List Lexeme → Option (Term × List Lexeme)
  | 0, _ => none
  | fuel + 1, units => do
    let (left, behind) ← conjunction fuel units
    if atWord "or" behind then
      let (right, rest) ← disjunction fuel (behind.drop 1)
      return (.or left right, rest)
    else return (left, behind)

def conjunction : (fuel : Nat) → List Lexeme → Option (Term × List Lexeme)
  | 0, _ => none
  | fuel + 1, units => do
    let (left, behind) ← inversion fuel units
    if atWord "and" behind then
      let (right, rest) ← conjunction fuel (behind.drop 1)
      return (.and left right, rest)
    else return (left, behind)

/-- Reads an operand of `not`, or a comparison. -/
def inversion : (fuel : Nat) → List Lexeme → Option (Term × List Lexeme)
  | 0, _ => none
  | fuel + 1, units =>
    if atWord "not" units then do
      let (operand, rest) ← inversion fuel (units.drop 1)
      return (.not operand, rest)
    else do
      let (first, behind) ← sum fuel units
      let (comparisons, others, rest) ← comparisons fuel behind
      if comparisons.isEmpty then return (first, rest)
      else return (.compare first comparisons others, rest)

def comparisons : (fuel : Nat) → List Lexeme →
    Option (List Comparison × List Term × List Lexeme)
  | 0, _ => none
  | fuel + 1, units =>
    match comparison? units with
    | none => some ([], [], units)
    | some (found, start) => do
      let (other, behind) ← sum fuel start
      let (more, others, rest) ← comparisons fuel behind
      return (found :: more, other :: others, rest)

def sum : (fuel : Nat) → List Lexeme → Option (Term × List Lexeme)
  | 0, _ => none
  | fuel + 1, units => do
    let (first, behind) ← product fuel units
    sumRest fuel first behind

def sumRest : (fuel : Nat) → Term → List Lexeme → Option (Term × List Lexeme)
  | 0, _, _ => none
  | fuel + 1, left, units =>
    match sumOperator? units with
    | none => some (left, units)
    | some (operator, start) => do
      let (right, behind) ← product fuel start
      sumRest fuel (.binary operator left right) behind

def product : (fuel : Nat) → List Lexeme → Option (Term × List Lexeme)
  | 0, _ => none
  | fuel + 1, units => do
    let (first, behind) ← signedTerm fuel units
    productRest fuel first behind

def productRest : (fuel : Nat) → Term → List Lexeme → Option (Term × List Lexeme)
  | 0, _, _ => none
  | fuel + 1, left, units =>
    match productOperator? units with
    | none => some (left, units)
    | some (operator, start) => do
      let (right, behind) ← signedTerm fuel start
      productRest fuel (.binary operator left right) behind

def signedTerm : (fuel : Nat) → List Lexeme → Option (Term × List Lexeme)
  | 0, _ => none
  | fuel + 1, units =>
    if atSymbol "-" units then do
      let (operand, rest) ← signedTerm fuel (units.drop 1)
      return (.negate operand, rest)
    else if atSymbol "+" units then do
      let (operand, rest) ← signedTerm fuel (units.drop 1)
      return (.plus operand, rest)
    else do
      let (first, behind) ← atom fuel units
      trailers fuel first behind

/-- Reads the attributes, calls and subscripts behind a term. -/
def trailers : (fuel : Nat) → Term → List Lexeme → Option (Term × List Lexeme)
  | 0, _, _ => none
  | fuel + 1, object, units =>
    match units with
    | .symbol "." :: rest => do
      let (name, behind) ← identifier rest
      trailers fuel (.attributeOf object name) behind
    | .symbol "(" :: rest => do
      let (found, behind) ← callArguments fuel rest
      trailers fuel (.call object found.positional found.keywords found.named) behind
    | .symbol "[" :: rest => do
      let (index, behind) ← subscriptIndex fuel rest
      let closed ← symbol "]" behind
      trailers fuel (.subscript object index) closed
    | _ => some (object, units)

def callArguments : (fuel : Nat) → List Lexeme → Option (Arguments × List Lexeme)
  | 0, _ => none
  | fuel + 1, units =>
    if atSymbol ")" units then some (⟨[], [], []⟩, units.drop 1)
    else
      match units with
      | .word name :: .symbol "=" :: _ =>
        if isReservedWord name then none else namedArguments fuel units
      | _ => do
        let (first, behind) ← expression fuel units
        if atWord "for" behind then
          let (generator, rest) ← comprehension fuel .generator (.yields first) behind
          let closed ← symbol ")" rest
          return (⟨[generator], [], []⟩, closed)
        else
          let (more, rest) ← furtherArguments fuel behind
          return ({ more with positional := first :: more.positional }, rest)

def furtherArguments : (fuel : Nat) → List Lexeme → Option (Arguments × List Lexeme)
  | 0, _ => none
  | fuel + 1, units =>
    if atSymbol ")" units then some (⟨[], [], []⟩, units.drop 1)
    else do
      let start ← symbol "," units
      if atSymbol ")" start then return (⟨[], [], []⟩, start.drop 1)
      else
        match start with
        | .word name :: .symbol "=" :: _ =>
          if isReservedWord name then none else namedArguments fuel start
        | _ =>
          let (argument, behind) ← expression fuel start
          let (more, rest) ← furtherArguments fuel behind
          return ({ more with positional := argument :: more.positional }, rest)

def namedArguments : (fuel : Nat) → List Lexeme → Option (Arguments × List Lexeme)
  | 0, _ => none
  | fuel + 1, units =>
    if atSymbol ")" units then some (⟨[], [], []⟩, units.drop 1)
    else do
      let (name, behindName) ← identifier units
      let start ← symbol "=" behindName
      let (value, behind) ← expression fuel start
      let (more, rest) ←
        if atSymbol "," behind then namedArguments fuel (behind.drop 1)
        else (symbol ")" behind).map fun closed => ((⟨[], [], []⟩ : Arguments), closed)
      return (⟨[], name :: more.keywords, value :: more.named⟩, rest)

def subscriptIndex : (fuel : Nat) → List Lexeme → Option (Term × List Lexeme)
  | 0, _ => none
  | fuel + 1, units => do
    let (first, behind) ← slice fuel units
    if atSymbol "," behind then
      let (more, rest) ← moreSlices fuel behind
      return (.tuple (first :: more), rest)
    else return (first, behind)

def moreSlices : (fuel : Nat) → List Lexeme → Option (List Term × List Lexeme)
  | 0, _ => none
  | fuel + 1, units =>
    if atSymbol "," units then
      if atSymbol "]" (units.drop 1) then some ([], units.drop 1)
      else do
        let (next, behind) ← slice fuel (units.drop 1)
        let (more, rest) ← moreSlices fuel behind
        return (next :: more, rest)
    else some ([], units)

def slice : (fuel : Nat) → List Lexeme → Option (Term × List Lexeme)
  | 0, _ => none
  | fuel + 1, units => do
    let (start, behindStart) ← slicePart fuel units
    if atSymbol ":" behindStart then
      let (stop, behindStop) ← slicePart fuel (behindStart.drop 1)
      if atSymbol ":" behindStop then
        let (step, rest) ← slicePart fuel (behindStop.drop 1)
        return (.slice (start.getD .none) (stop.getD .none) (step.getD .none), rest)
      else return (.slice (start.getD .none) (stop.getD .none) .none, behindStop)
    else
      match start with
      | some index => return (index, behindStart)
      | none => none

def slicePart : (fuel : Nat) → List Lexeme → Option (Option Term × List Lexeme)
  | 0, _ => none
  | fuel + 1, units =>
    if atSymbol ":" units || atSymbol "]" units || atSymbol "," units then some (none, units)
    else (expression fuel units).map fun found => (some found.1, found.2)

def atom : (fuel : Nat) → List Lexeme → Option (Term × List Lexeme)
  | 0, _ => none
  | fuel + 1, units =>
    match units with
    | .int value :: rest => some (.int value, rest)
    | .real value :: rest => some (.real value, rest)
    | .text _ :: _ =>
      let found := texts units
      some (.text found.1, found.2)
    | .word "True" :: rest => some (.bool true, rest)
    | .word "False" :: rest => some (.bool false, rest)
    | .word "None" :: rest => some (.none, rest)
    | .word _ :: _ => (identifier units).map fun found => (.name found.1, found.2)
    | .symbol "(" :: rest =>
      if atSymbol ")" rest then some (.tuple [], rest.drop 1)
      else do
        let (first, behind) ← expression fuel rest
        if atWord "for" behind then
          let (found, inner) ← comprehension fuel .generator (.yields first) behind
          let closed ← symbol ")" inner
          return (found, closed)
        else if atSymbol "," behind then
          let (more, inner) ← moreItems fuel ")" behind
          let closed ← symbol ")" inner
          return (.tuple (first :: more), closed)
        else
          let closed ← symbol ")" behind
          return (first, closed)
    | .symbol "[" :: rest =>
      if atSymbol "]" rest then some (.list [], rest.drop 1)
      else do
        let (first, behind) ← expression fuel rest
        if atWord "for" behind then
          let (found, inner) ← comprehension fuel .list (.yields first) behind
          let closed ← symbol "]" inner
          return (found, closed)
        else
          let (more, inner) ← moreItems fuel "]" behind
          let closed ← symbol "]" inner
          return (.list (first :: more), closed)
    | .symbol "\x7b" :: rest =>
      if atSymbol "\x7d" rest then some (.dict [], rest.drop 1)
      else do
        let (key, behindKey) ← expression fuel rest
        let start ← symbol ":" behindKey
        let (value, behind) ← expression fuel start
        if atWord "for" behind then
          let (found, inner) ← comprehension fuel .dict (.yieldsPair key value) behind
          let closed ← symbol "\x7d" inner
          return (found, closed)
        else
          let (more, inner) ← moreEntries fuel behind
          let closed ← symbol "\x7d" inner
          return (.dict ((key, value) :: more), closed)
    | _ => none

def moreItems : (fuel : Nat) → String → List Lexeme → Option (List Term × List Lexeme)
  | 0, _, _ => none
  | fuel + 1, closing, units =>
    if atSymbol "," units then
      if atSymbol closing (units.drop 1) then some ([], units.drop 1)
      else do
        let (next, behind) ← expression fuel (units.drop 1)
        let (more, rest) ← moreItems fuel closing behind
        return (next :: more, rest)
    else some ([], units)

def moreEntries : (fuel : Nat) → List Lexeme → Option (List (Term × Term) × List Lexeme)
  | 0, _ => none
  | fuel + 1, units =>
    if atSymbol "," units then
      if atSymbol "\x7d" (units.drop 1) then some ([], units.drop 1)
      else do
        let (key, behindKey) ← expression fuel (units.drop 1)
        let start ← symbol ":" behindKey
        let (value, behind) ← expression fuel start
        let (more, rest) ← moreEntries fuel behind
        return ((key, value) :: more, rest)
    else some ([], units)

/-- Reads the comprehension that yields something; its clauses start with a loop. -/
def comprehension : (fuel : Nat) → Collection → Producer → List Lexeme →
    Option (Term × List Lexeme)
  | 0, _, _, _ => none
  | fuel + 1, collection, yielded, units => do
    let (found, rest) ← clauses fuel yielded units
    match found with
    | .each target source inner => return (.comprehension collection target source inner, rest)
    | _ => none

/-- Reads the clauses of a comprehension around what it yields. -/
def clauses : (fuel : Nat) → Producer → List Lexeme → Option (Producer × List Lexeme)
  | 0, _, _ => none
  | fuel + 1, yielded, units =>
    if atWord "for" units then do
      let (bound, behindTarget) ← target fuel (units.drop 1)
      let start ← word "in" behindTarget
      let (source, behind) ← disjunction fuel start
      let (rest, stop) ← clauses fuel yielded behind
      return (.each bound source rest, stop)
    else if atWord "if" units then do
      let (condition, behind) ← disjunction fuel (units.drop 1)
      let (rest, stop) ← clauses fuel yielded behind
      return (.guard condition rest, stop)
    else some (yielded, units)

end

end Grammar

def nestingLimit : Nat := 200

/-- Whether brackets are nested within the limit, when `depth` are open. -/
def nestsWithin (depth : Nat) : List Lexeme → Bool
  | [] => true
  | .symbol mark :: rest =>
    if ["(", "[", "\x7b"].contains mark then
      depth < nestingLimit && nestsWithin (depth + 1) rest
    else if [")", "]", "\x7d"].contains mark then nestsWithin (depth - 1) rest
    else nestsWithin depth rest
  | _ :: rest => nestsWithin depth rest

def Term.parse? (code : String) : Option Term := do
  let units ← lexemes? code
  guard (nestsWithin 0 units)
  let (term, rest) ← Grammar.expression (16 * units.length + 16) units
  if rest.isEmpty then return term else Option.none

end TypedMarkup.Host
