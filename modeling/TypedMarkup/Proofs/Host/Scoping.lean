import TypedMarkup.Host.Scope
import TypedMarkup.Proofs.Host.ReadingOrder
import TypedMarkup.Proofs.Table

/-!
Contract: which names of an expression come from outside.

Owns: `Term.FreeIn`, the occurrences that no function and no comprehension around them binds, by
the scoping rules of the host language, `Term.BoundIn`, the names that something in a term binds,
and how `Expression.freeNames` lies between the two.

A function binds its parameters in its body, but not in their defaults. A comprehension binds all of
its loop variables wherever it is written, except in the source of its first loop, which is
evaluated outside.
-/

namespace TypedMarkup

namespace Host

/-! ## The scoping rules -/

/-- The terms of clauses: conditions, sources of further loops, and what is yielded. -/
def Producer.parts : Producer → List Term
  | .yields item => [item]
  | .yieldsPair key value => [key, value]
  | .guard condition rest => condition :: rest.parts
  | .each _ source rest => source :: rest.parts

namespace Term

/-- The parts of a term that belong to the same scope as the term itself. -/
def outerParts : Term → List Term
  | attributeOf object _ => [object]
  | call function positional _ named => function :: (positional ++ named)
  | list items => items
  | tuple items => items
  | dict entries => entries.map Prod.fst ++ entries.map Prod.snd
  | subscript object index => [object, index]
  | slice start stop step => [start, stop, step]
  | negate operand => [operand]
  | plus operand => [operand]
  | not operand => [operand]
  | binary _ left right => [left, right]
  | compare first _ others => first :: others
  | and left right => [left, right]
  | or left right => [left, right]
  | conditional condition consequent alternative => [condition, consequent, alternative]
  | lambda _ defaults _ _ => defaults
  | comprehension _ _ source _ => [source]
  | _ => []

/-- The parts of a term that belong to a scope of their own. -/
def innerParts : Term → List Term
  | lambda _ _ _ body => [body]
  | comprehension _ _ _ rest => rest.parts
  | _ => []

/-- The names that a term binds in its inner parts. -/
def introduced : Term → List String
  | lambda parameters _ collector _ => parameters ++ collector.toList
  | comprehension _ target _ rest => target.identifiers ++ rest.identifiers
  | _ => []

/-- A name has an occurrence in a term that nothing around the occurrence binds. -/
inductive FreeIn (identifier : String) : Term → Prop where
  | here : FreeIn identifier (name identifier)
  | outer {term part : Term} (member : part ∈ term.outerParts) (free : FreeIn identifier part) :
      FreeIn identifier term
  | inner {term part : Term} (member : part ∈ term.innerParts) (free : FreeIn identifier part)
      (notIntroduced : identifier ∉ term.introduced) : FreeIn identifier term

/-- A name is bound by something in a term. -/
inductive BoundIn (identifier : String) : Term → Prop where
  | here {term : Term} (introduced : identifier ∈ term.introduced) : BoundIn identifier term
  | inside {term part : Term} (member : part ∈ term.outerParts ++ term.innerParts)
      (bound : BoundIn identifier part) : BoundIn identifier term

/-! ## Names by parts -/

end Term

section

variable {identifier : String}

theorem mem_readsAll {terms : List Term} :
    identifier ∈ readsAll terms ↔ ∃ term ∈ terms, identifier ∈ term.reads := by
  induction terms with
  | nil => simp [readsAll]
  | cons term rest ih => simp [readsAll, ih]

theorem mem_readsEntries {entries : List (Term × Term)} :
    identifier ∈ readsEntries entries ↔
      ∃ term ∈ entries.map Prod.fst ++ entries.map Prod.snd, identifier ∈ term.reads := by
  induction entries with
  | nil => simp [readsEntries]
  | cons entry rest ih =>
    obtain ⟨key, value⟩ := entry
    rw [readsEntries, readsEntry, List.mem_append, ih]
    simp only [List.mem_append, List.map_cons, List.mem_cons]
    grind

theorem mem_producer_reads (rest : Producer) :
    identifier ∈ rest.yieldReads ++ rest.clauseReads ↔
      ∃ term ∈ rest.parts, identifier ∈ term.reads := by
  match rest with
  | .yields item => simp [Producer.yieldReads, Producer.clauseReads, Producer.parts]
  | .yieldsPair key value => simp [Producer.yieldReads, Producer.clauseReads, Producer.parts]
  | .guard _ rest | .each _ _ rest =>
    have further := mem_producer_reads rest
    simp only [List.mem_append, Producer.yieldReads, Producer.clauseReads, Producer.parts,
      List.mem_cons] at further ⊢
    grind

theorem mem_bindsAll {terms : List Term} :
    identifier ∈ bindsAll terms ↔ ∃ term ∈ terms, identifier ∈ term.binds := by
  induction terms with
  | nil => simp [bindsAll]
  | cons term rest ih => simp [bindsAll, ih]

theorem mem_bindsEntries {entries : List (Term × Term)} :
    identifier ∈ bindsEntries entries ↔
      ∃ term ∈ entries.map Prod.fst ++ entries.map Prod.snd, identifier ∈ term.binds := by
  induction entries with
  | nil => simp [bindsEntries]
  | cons entry rest ih =>
    obtain ⟨key, value⟩ := entry
    rw [bindsEntries, bindsEntry, List.mem_append, ih]
    simp only [List.mem_append, List.map_cons, List.mem_cons]
    grind

theorem mem_producer_binds (rest : Producer) :
    identifier ∈ rest.binds ↔
      identifier ∈ rest.identifiers ∨ ∃ term ∈ rest.parts, identifier ∈ term.binds := by
  match rest with
  | .yields item => simp [Producer.binds, Producer.identifiers, Producer.parts]
  | .yieldsPair key value => simp [Producer.binds, Producer.identifiers, Producer.parts]
  | .guard _ rest | .each _ _ rest =>
    have further := mem_producer_binds rest
    simp only [Producer.binds, Producer.identifiers, Producer.parts, List.mem_append,
      List.mem_cons]
    grind

theorem mem_reads_iff {term : Term} :
    identifier ∈ term.reads ↔ term = .name identifier ∨
      ∃ part ∈ term.outerParts ++ term.innerParts, identifier ∈ part.reads := by
  cases term with
  | comprehension collection target source rest =>
    have inside : identifier ∈ rest.yieldReads ++ rest.clauseReads ↔ _ := mem_producer_reads rest
    simp only [Term.reads, Term.outerParts, Term.innerParts, List.mem_append, List.mem_cons]
    grind
  | dict entries =>
    simp only [Term.reads, Term.outerParts, Term.innerParts, List.append_nil, mem_readsEntries,
      reduceCtorEq, false_or]
  | _ =>
    simp only [Term.reads, Term.outerParts, Term.innerParts, mem_readsAll, List.mem_append,
      List.mem_cons]
    grind

/-- What is bound anywhere in a term is bound by the term itself or in one of its parts. -/
theorem mem_binds_iff {term : Term} :
    identifier ∈ term.binds ↔ identifier ∈ term.introduced ∨
      ∃ part ∈ term.outerParts ++ term.innerParts, identifier ∈ part.binds := by
  cases term with
  | comprehension collection target source rest =>
    have inside : identifier ∈ rest.binds ↔ _ := mem_producer_binds rest
    simp only [Term.binds, Term.introduced, Term.outerParts, Term.innerParts, List.mem_append,
      List.mem_cons]
    grind
  | dict entries =>
    simp only [Term.binds, Term.introduced, Term.outerParts, Term.innerParts, List.append_nil,
      mem_bindsEntries, List.not_mem_nil, false_or]
  | _ =>
    simp only [Term.binds, Term.introduced, Term.outerParts, Term.innerParts, mem_bindsAll,
      List.mem_append, List.mem_cons]
    grind

theorem sizeOf_part_of_producer {part : Term} (rest : Producer) (member : part ∈ rest.parts) :
    sizeOf part < sizeOf rest := by
  match rest with
  | .yields item =>
    cases List.mem_singleton.mp member
    simp
  | .yieldsPair key value =>
    simp only [Producer.parts, List.mem_cons, List.not_mem_nil, or_false] at member
    rcases member with rfl | rfl <;> simp <;> omega
  | .guard _ rest | .each _ _ rest =>
    rcases List.mem_cons.mp member with rfl | further
    · simp; omega
    · have smaller := sizeOf_part_of_producer rest further
      simp
      omega

theorem sizeOf_part {term part : Term} (member : part ∈ term.outerParts ++ term.innerParts) :
    sizeOf part < sizeOf term := by
  cases term with
  | comprehension collection target source rest =>
    rcases List.mem_cons.mp member with rfl | inside
    · simp; omega
    · have smaller := sizeOf_part_of_producer rest inside
      simp
      omega
  | dict entries =>
    simp only [Term.outerParts, Term.innerParts, List.append_nil, List.mem_append,
      List.mem_map] at member
    rcases member with ⟨⟨key, value⟩, held, rfl⟩ | ⟨⟨key, value⟩, held, rfl⟩ <;>
      have smaller := List.sizeOf_lt_of_mem held <;>
      simp at smaller ⊢ <;>
      omega
  | _ =>
    have smaller : ∀ terms : List Term, part ∈ terms → sizeOf part < sizeOf terms :=
      fun _ => List.sizeOf_lt_of_mem
    grind [Term.outerParts, Term.innerParts]

/-- What holds of a term when it holds of its parts holds of every term. -/
theorem Term.induction_parts {motive : Term → Prop}
    (step : ∀ term : Term,
      (∀ part ∈ term.outerParts ++ term.innerParts, motive part) → motive term)
    (term : Term) : motive term :=
  step term fun part _ => Term.induction_parts step part
termination_by sizeOf term
decreasing_by exact sizeOf_part ‹_›

/-! ## Reading and binding -/

theorem mem_binds_iff_boundIn {term : Term} :
    identifier ∈ term.binds ↔ term.BoundIn identifier := by
  induction term using Term.induction_parts with
  | step term ih =>
    rw [mem_binds_iff]
    constructor
    · rintro (here | ⟨part, member, bound⟩)
      · exact .here here
      · exact .inside member ((ih part member).mp bound)
    · intro bound
      cases bound with
      | here introduced => exact .inl introduced
      | inside member bound => exact .inr ⟨_, member, (ih _ member).mpr bound⟩

theorem mem_reads_of_freeIn {term : Term} (free : term.FreeIn identifier) :
    identifier ∈ term.reads := by
  induction free with
  | here => exact mem_reads_iff.mpr (.inl rfl)
  | outer member _ ih =>
    exact mem_reads_iff.mpr (.inr ⟨_, List.mem_append_left _ member, ih⟩)
  | inner member _ _ ih =>
    exact mem_reads_iff.mpr (.inr ⟨_, List.mem_append_right _ member, ih⟩)

/-- Each occurrence of a name that nothing binds is free. -/
theorem freeIn_of_mem_reads {term : Term} (unbound : ¬ term.BoundIn identifier)
    (read : identifier ∈ term.reads) : term.FreeIn identifier := by
  induction term using Term.induction_parts with
  | step term ih =>
    rcases mem_reads_iff.mp read with rfl | ⟨part, member, readInPart⟩
    · exact .here
    · have free : part.FreeIn identifier :=
        ih part member (fun bound => unbound (.inside member bound)) readInPart
      -- The name is bound nowhere in the term, so in particular not on the way to this part.
      rcases List.mem_append.mp member with outside | inside
      · exact .outer outside free
      · exact .inner inside free fun introduced => unbound (.here introduced)

theorem mem_freeNames {term : Term} :
    identifier ∈ term.freeNames ↔ term.FreeIn identifier ∧ ¬ term.BoundIn identifier := by
  rw [Term.freeNames, Table.mem_distinct, List.mem_filter, Bool.not_eq_true',
    ← Bool.not_eq_true, List.contains_iff_mem, mem_binds_iff_boundIn]
  exact ⟨fun ⟨read, unbound⟩ => ⟨freeIn_of_mem_reads unbound read, unbound⟩,
    fun ⟨free, unbound⟩ => ⟨mem_reads_of_freeIn free, unbound⟩⟩

end

end Host

namespace Expression

open Host

theorem parse?_of_term {code : String} {span : Span} {term : Term}
    (read : Expression.term code span = .ok term) : Term.parse? code = some term := by
  unfold Expression.term at read
  split at read
  · cases read
  · split at read
    · next found parsed =>
      cases read
      exact parsed
    · cases read

theorem freeNames_of_term {expression : Expression} {term : Term}
    (computed : ∀ head members span, expression ≠ .path head members span)
    (read : Expression.term expression.code expression.span = .ok term) :
    expression.freeNames = .ok term.freeNames := by
  cases expression with
  | path head members span => exact absurd rfl (computed head members span)
  | call | group =>
    change (Expression.term _ _).map Host.Term.freeNames = _
    rw [read]
    rfl

/-- The names given for an expression are its free names less those that something in it binds as
well, each once and in the order of their first use; the uses stand in the order of the text. They
are all of its free names just when no name has both a free occurrence and a binder. -/
theorem freeNames_eq_free_and_unbound {expression : Expression} {term : Term}
    (computed : ∀ head members span, expression ≠ .path head members span)
    (read : Expression.term expression.code expression.span = .ok term) :
    (∃ units, lexemes? expression.code = some units ∧ term.reads.Sublist (wordsOf units)) ∧
      ∃ names, expression.freeNames = .ok names ∧ names.Nodup ∧
        (names.Pairwise fun earlier later => term.reads.idxOf earlier < term.reads.idxOf later) ∧
        (∀ name, name ∈ names ↔ term.FreeIn name ∧ ¬ term.BoundIn name) ∧
        ((∀ name, name ∈ names ↔ term.FreeIn name) ↔
          ∀ name, term.FreeIn name → ¬ term.BoundIn name) := by
  have inOrder := Table.pairwise_distinct_filter (fun name => !term.binds.contains name) term.reads
  refine ⟨reads_sublist_words (parse?_of_term read), term.freeNames,
    freeNames_of_term computed read, ?_, inOrder, fun name => mem_freeNames, ?_⟩
  · exact inOrder.imp fun before same => absurd (same ▸ before) (Nat.lt_irrefl _)
  · refine forall_congr' fun name => ?_
    rw [mem_freeNames]
    tauto

theorem term_of_lexemes {code : String} {span : Span} {term : Term} (units : List Lexeme)
    (clean : code.toList.contains '\x00' = false) (cut : lexemes? code = some units)
    (shallow : nestsWithin 0 units = true)
    (read : Grammar.expression (16 * units.length + 16) units = some (term, [])) :
    Expression.term code span = .ok term := by
  have parsed : Term.parse? code = some term := by
    refine Option.bind_eq_some_iff.mpr ⟨units, cut, ?_⟩
    refine Option.bind_eq_some_iff.mpr ⟨(), if_pos shallow, ?_⟩
    exact Option.bind_eq_some_iff.mpr ⟨(term, []), read, rfl⟩
  rw [Expression.term, clean, parsed]
  rfl

/-- A list whose condition holds a function with a parameter of its own. -/
def filteredCalls : Expression :=
  .group .bracket "[f(x, k) for x in xs if g(lambda y: y)]" default

def filteredCallsTerm : Term :=
  .comprehension .list (.name "x") (.name "xs")
    (.guard (.call (.name "g") [.lambda ["y"] [] none (.name "y")] [] [])
      (.yields (.call (.name "f") [.name "x", .name "k"] [] [])))

theorem filteredCalls_free_names :
    filteredCalls.freeNames = .ok ["f", "k", "xs", "g"] ∧
      ∀ name, name ∈ ["f", "k", "xs", "g"] ↔
        filteredCallsTerm.FreeIn name ∧ ¬ filteredCallsTerm.BoundIn name := by
  have read : Expression.term filteredCalls.code filteredCalls.span = .ok filteredCallsTerm :=
    term_of_lexemes
      [.symbol "[", .word "f", .symbol "(", .word "x", .symbol ",", .word "k", .symbol ")",
        .word "for", .word "x", .word "in", .word "xs", .word "if", .word "g", .symbol "(",
        .word "lambda", .word "y", .symbol ":", .word "y", .symbol ")", .symbol "]"]
      (by decide +kernel) (by decide +kernel) (by decide +kernel) (by rfl)
  have computed : ∀ head members span, filteredCalls ≠ .path head members span := by
    intro head members span same
    cases same
  obtain ⟨-, names, found, -, -, exactly, -⟩ := freeNames_eq_free_and_unbound computed read
  have listed : filteredCalls.freeNames = .ok ["f", "k", "xs", "g"] :=
    freeNames_of_term computed read
  rw [listed] at found
  cases found
  exact ⟨listed, exactly⟩

/-- A call that passes a name beside a list whose loop binds the same name. -/
def passedAndRebound : Expression :=
  .group .brace "(\nf(x, [x for x in y])\n)" default

def passedAndReboundTerm : Term :=
  .call (.name "f") [.name "x", .comprehension .list (.name "x") (.name "y") (.yields (.name "x"))]
    [] []

/-- A free name is left out when a loop elsewhere in the expression binds it. -/
theorem passed_name_is_left_out :
    Expression.term passedAndRebound.code passedAndRebound.span = .ok passedAndReboundTerm ∧
      passedAndReboundTerm.FreeIn "x" ∧ passedAndRebound.freeNames = .ok ["f", "y"] := by
  have read : Expression.term passedAndRebound.code passedAndRebound.span =
      .ok passedAndReboundTerm :=
    term_of_lexemes
      [.symbol "(", .word "f", .symbol "(", .word "x", .symbol ",", .symbol "[", .word "x",
        .word "for", .word "x", .word "in", .word "y", .symbol "]", .symbol ")", .symbol ")"]
      (by decide +kernel) (by decide +kernel) (by decide +kernel) (by rfl)
  have computed : ∀ head members span, passedAndRebound ≠ .path head members span := by
    intro head members span same
    cases same
  have free : passedAndReboundTerm.FreeIn "x" :=
    .outer (List.mem_cons_of_mem _ List.mem_cons_self) .here
  exact ⟨read, free, freeNames_of_term computed read⟩

end Expression

end TypedMarkup
