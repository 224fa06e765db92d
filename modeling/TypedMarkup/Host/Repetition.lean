import TypedMarkup.Host.Term

/-!
Contract: the names that a term may not repeat.

Owns: `Term.repeats`. A function must not have a parameter twice, and a call must not name an
argument twice. Such a term can be read, but not evaluated.
-/

namespace TypedMarkup.Host

def hasTwins : List String → Bool
  | [] => false
  | name :: rest => rest.contains name || hasTwins rest

mutual

/-- Whether a term repeats a parameter or a named argument somewhere. -/
def Term.repeats : Term → Bool
  | .none => false
  | .bool _ => false
  | .int _ => false
  | .real _ => false
  | .text _ => false
  | .name _ => false
  | .attributeOf object _ => object.repeats
  | .call function positional keywords named =>
    hasTwins keywords || function.repeats || repeatsAny positional || repeatsAny named
  | .list items => repeatsAny items
  | .tuple items => repeatsAny items
  | .dict entries => repeatsEntries entries
  | .subscript object index => object.repeats || index.repeats
  | .slice start stop step => start.repeats || stop.repeats || step.repeats
  | .negate operand => operand.repeats
  | .plus operand => operand.repeats
  | .not operand => operand.repeats
  | .binary _ left right => left.repeats || right.repeats
  | .compare first _ others => first.repeats || repeatsAny others
  | .and left right => left.repeats || right.repeats
  | .or left right => left.repeats || right.repeats
  | .conditional condition consequent alternative =>
    condition.repeats || consequent.repeats || alternative.repeats
  | .lambda parameters defaults collector body =>
    hasTwins (parameters ++ collector.toList) || repeatsAny defaults || body.repeats
  | .comprehension _ _ source rest => source.repeats || rest.repeats

def repeatsAny : List Term → Bool
  | [] => false
  | term :: rest => term.repeats || repeatsAny rest

def repeatsEntries : List (Term × Term) → Bool
  | [] => false
  | entry :: rest => repeatsEntry entry || repeatsEntries rest

def repeatsEntry : Term × Term → Bool
  | (key, value) => key.repeats || value.repeats

def Producer.repeats : Producer → Bool
  | .yields item => item.repeats
  | .yieldsPair key value => key.repeats || value.repeats
  | .guard condition rest => condition.repeats || rest.repeats
  | .each _ source rest => source.repeats || rest.repeats

end

end TypedMarkup.Host
