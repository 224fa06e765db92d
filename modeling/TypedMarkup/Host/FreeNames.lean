import TypedMarkup.Host.Term
import TypedMarkup.Table

/-!
Contract: the names that a term reads from its surroundings.

Owns: `Term.reads`, `Term.binds` and `Term.freeNames`. A name that is bound anywhere in a term, as
a parameter or by a comprehension, counts as bound in all of it.
-/

namespace TypedMarkup.Host

mutual

/-- The names that are read, in the order of the text and with repetitions. -/
def Term.reads : Term → List String
  | .none => []
  | .bool _ => []
  | .int _ => []
  | .real _ => []
  | .text _ => []
  | .name identifier => [identifier]
  | .attributeOf object _ => object.reads
  | .call function positional _ named => function.reads ++ readsAll positional ++ readsAll named
  | .list items => readsAll items
  | .tuple items => readsAll items
  | .dict entries => readsEntries entries
  | .subscript object index => object.reads ++ index.reads
  | .slice start stop step => start.reads ++ stop.reads ++ step.reads
  | .negate operand => operand.reads
  | .plus operand => operand.reads
  | .not operand => operand.reads
  | .binary _ left right => left.reads ++ right.reads
  | .compare first _ others => first.reads ++ readsAll others
  | .and left right => left.reads ++ right.reads
  | .or left right => left.reads ++ right.reads
  | .conditional condition consequent alternative =>
    consequent.reads ++ condition.reads ++ alternative.reads
  | .lambda _ defaults _ body => readsAll defaults ++ body.reads
  | .comprehension _ _ source rest => rest.yieldReads ++ source.reads ++ rest.clauseReads

def readsAll : List Term → List String
  | [] => []
  | term :: rest => term.reads ++ readsAll rest

def readsEntries : List (Term × Term) → List String
  | [] => []
  | entry :: rest => readsEntry entry ++ readsEntries rest

def readsEntry : Term × Term → List String
  | (key, value) => key.reads ++ value.reads

/-- The names read by what a comprehension yields, which is written before its clauses. -/
def Producer.yieldReads : Producer → List String
  | .yields item => item.reads
  | .yieldsPair key value => key.reads ++ value.reads
  | .guard _ rest => rest.yieldReads
  | .each _ _ rest => rest.yieldReads

def Producer.clauseReads : Producer → List String
  | .yields _ => []
  | .yieldsPair _ _ => []
  | .guard condition rest => condition.reads ++ rest.clauseReads
  | .each _ source rest => source.reads ++ rest.clauseReads

end

mutual

def Term.binds : Term → List String
  | .none => []
  | .bool _ => []
  | .int _ => []
  | .real _ => []
  | .text _ => []
  | .name _ => []
  | .attributeOf object _ => object.binds
  | .call function positional _ named => function.binds ++ bindsAll positional ++ bindsAll named
  | .list items => bindsAll items
  | .tuple items => bindsAll items
  | .dict entries => bindsEntries entries
  | .subscript object index => object.binds ++ index.binds
  | .slice start stop step => start.binds ++ stop.binds ++ step.binds
  | .negate operand => operand.binds
  | .plus operand => operand.binds
  | .not operand => operand.binds
  | .binary _ left right => left.binds ++ right.binds
  | .compare first _ others => first.binds ++ bindsAll others
  | .and left right => left.binds ++ right.binds
  | .or left right => left.binds ++ right.binds
  | .conditional condition consequent alternative =>
    condition.binds ++ consequent.binds ++ alternative.binds
  | .lambda parameters defaults collector body =>
    parameters ++ collector.toList ++ bindsAll defaults ++ body.binds
  | .comprehension _ target source rest => target.identifiers ++ source.binds ++ rest.binds

def bindsAll : List Term → List String
  | [] => []
  | term :: rest => term.binds ++ bindsAll rest

def bindsEntries : List (Term × Term) → List String
  | [] => []
  | entry :: rest => bindsEntry entry ++ bindsEntries rest

def bindsEntry : Term × Term → List String
  | (key, value) => key.binds ++ value.binds

def Producer.binds : Producer → List String
  | .yields item => item.binds
  | .yieldsPair key value => key.binds ++ value.binds
  | .guard condition rest => condition.binds ++ rest.binds
  | .each target source rest => target.identifiers ++ source.binds ++ rest.binds

end

/-- The names that a term reads and does not bind, in the order of their first use. -/
def Term.freeNames (term : Term) : List String :=
  distinct (term.reads.filter fun name => !term.binds.contains name)

end TypedMarkup.Host
