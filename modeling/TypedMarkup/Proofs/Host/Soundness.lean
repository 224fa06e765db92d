import TypedMarkup.Proofs.Document.Validity
import TypedMarkup.Proofs.Host.Failures
import TypedMarkup.Proofs.Table

/-!
Contract: values from which only valid documents can be reached.

Owns: `Value.Sound`, its refinement `Value.Safe`, the same for what an evaluation keeps in its
memory, and `Host.Run.Keeps`, the computations that start and end with a safe memory. Every
primitive of a run is such a computation; the evaluation of terms is put together from them.

A value is sound if everything that can be reached from it is well made: nodes are valid, checked
texts come from their classes, and words belong to their vocabularies. It is safe if, besides, every
stream among them ends as `Endings` has it, and then a computation among safe values fails in no
other way: streams are the only values that bring failures of their own.
-/

namespace TypedMarkup

namespace Value

/-- The values that a value hands out: items, keys and values of entries, fields, results of calls
and defaults of parameters. -/
def parts : Value → List Value
  | list items => items
  | tuple items => items
  | dict entries => entries.map Prod.fst ++ entries.map Prod.snd
  | spaced _ items => items
  | plainSet items => items
  | record fields _ => fields.map Prod.snd
  | function _ result _ => [result]
  | stream items _ _ _ => items
  | closure _ defaults _ _ _ => defaults
  | _ => []

/-- One value can be got from another. -/
inductive Reaches : Value → Value → Prop where
  | self (value : Value) : Reaches value value
  | through {value part target : Value} (member : part ∈ value.parts)
      (reaches : Reaches part target) : Reaches value target

/-- A value is one that can come about: checked texts are made by their classes, words and
vocabularies are among the known ones, and nodes are valid. -/
def WellMade : Value → Prop
  | checked kind content => kind.Made (.checked kind content)
  | member word => ∃ words ∈ Vocabulary.all, word ∈ words.members
  | vocabulary words => words ∈ Vocabulary.all
  | node found => found.Valid
  | _ => True

/-- Everything that can be got from a value is well made. -/
def Sound (value : Value) : Prop :=
  ∀ target, value.Reaches target → target.WellMade

end Value

theorem mem_of_mem_walkOrder {values : List Value} {belongings : List Value} {found : Value}
    (member : found ∈ walkOrder values belongings) : found ∈ belongings := by
  unfold walkOrder at member
  split at member
  · obtain ⟨entry, entryMember, rfl⟩ := List.mem_map.mp member
    exact List.fst_mem_of_mem_zipIdx (List.mem_mergeSort.mp entryMember)
  · exact member

/-- The failures that streams may end in. Those for reasons that lie in host values, which any
computation may have, are always among them. -/
class Endings where
  Expected : Failure → Prop
  expected : ∀ failure : Failure, failure.kind?.isSome = true → Expected failure

namespace Endings

/-- Streams may end in any failure. -/
@[reducible]
def any : Endings := ⟨fun _ => True, fun _ _ => trivial⟩

/-- Streams may not end in errors of a unit. -/
@[reducible]
def host : Endings := ⟨fun failure => failure.kind?.isSome = true, fun _ kind => kind⟩

end Endings

open Endings

namespace Value

/-- A value is well made, and a stream has an expected end. -/
def Proper [Endings] : Value → Prop
  | stream _ _ finish _ => ∀ failure ∈ finish, Expected failure
  | other => other.WellMade

/-- Everything that can be got from a value is proper. -/
def Safe [Endings] (value : Value) : Prop :=
  ∀ target, value.Reaches target → target.Proper

/-- Where streams may end in any failure, soundness is all that there is to safety. -/
theorem sound_iff_safe {value : Value} : value.Sound ↔ @Safe .any value := by
  have same : ∀ target : Value, target.WellMade ↔ @Proper .any target := by
    intro target
    cases target with
    | stream items start finish identity => exact ⟨fun _ _ _ => trivial, fun _ => trivial⟩
    | _ => exact Iff.rfl
  exact forall_congr' fun target => imp_congr_right fun _ => same target

variable [Endings]

theorem Safe.proper {value : Value} (safe : value.Safe) : value.Proper :=
  safe value (.self value)

theorem Safe.wellMade {value : Value} (safe : value.Safe) : value.WellMade := by
  have proper := safe.proper
  cases value with
  | stream items start finish identity => trivial
  | _ => exact proper

theorem Safe.part {value part : Value} (safe : value.Safe) (member : part ∈ value.parts) :
    part.Safe :=
  fun target reaches => safe target (.through member reaches)

theorem Safe.of_parts {value : Value} (proper : value.Proper)
    (parts : ∀ part ∈ value.parts, part.Safe) : value.Safe := by
  intro target reaches
  cases reaches with
  | self => exact proper
  | through member further => exact parts _ member target further

/-- A value that hands out nothing is safe if it is proper. -/
theorem Safe.of_none {value : Value} (proper : value.Proper) (empty : value.parts = []) :
    value.Safe := by
  apply Safe.of_parts proper
  rw [empty]
  exact List.forall_mem_nil _

end Value

variable [Endings]

def AllSafe (values : List Value) : Prop :=
  ∀ value ∈ values, value.Safe

theorem AllSafe.cons {value : Value} {rest : List Value} (first : value.Safe)
    (further : AllSafe rest) : AllSafe (value :: rest) :=
  List.forall_mem_cons.mpr ⟨first, further⟩

theorem allSafe_nil : AllSafe [] :=
  List.forall_mem_nil _

namespace Host

/-- Everything that an iteration can still hand out is safe, and so is its end. -/
def Iteration.Safe : Iteration → Prop
  | items rest finish => AllSafe rest ∧ ∀ failure ∈ finish, Expected failure
  | mapped function _ => function.Safe
  | _ => True

structure Memory.Safe (memory : Memory) : Prop where
  globals : ∀ entry ∈ memory.globals, entry.2.Safe
  cells : ∀ value, some value ∈ memory.cells → value.Safe
  iterations : ∀ iteration ∈ memory.iterations, iteration.Safe

theorem Memory.safe_start {globals : Table Value} (safe : ∀ entry ∈ globals, entry.2.Safe) :
    (Memory.start globals).Safe := by
  refine ⟨safe, ?_, ?_⟩
  · intro value member
    cases Array.not_mem_empty _ member
  · intro iteration member
    cases Array.not_mem_empty _ member

namespace Run

/-- In a safe memory, a computation fails in expected ways only; if it returns, the memory is still
safe, and the result has a property. -/
structure Keeps {α : Type} (property : α → Prop) (computation : Run α) : Prop where
  failing : ∀ memory : Memory, memory.Safe → FailsOnly Expected (computation.run memory)
  returning : ∀ memory : Memory, memory.Safe → ∀ result after,
    computation.run memory = .ok (result, after) → property result ∧ after.Safe

section

variable {α β : Type} {property : α → Prop} {further : β → Prop} {computation : Run α}

section

variable {failure : Failure} {step : Except Failure α} {items : List β} {start : α}

theorem keeps_iff : Keeps property computation ↔ ∀ memory : Memory, memory.Safe →
    EndsIn (fun ended => property ended.1 ∧ ended.2.Safe) Expected (computation.run memory) := by
  constructor
  · intro kept memory safe
    cases ran : computation.run memory with
    | ok ended => exact kept.returning memory safe ended.1 ended.2 ran
    | error failure => exact kept.failing memory safe failure ran
  · intro ends
    refine ⟨fun memory safe => (ends memory safe).failsOnly, fun memory safe result after ran => ?_⟩
    have ended := ends memory safe
    rwa [ran] at ended

theorem Keeps.pure {value : α} (holds : property value) :
    Keeps property (Pure.pure value : Run α) :=
  keeps_iff.mpr fun _ safe => ⟨holds, safe⟩

theorem Keeps.bind {next : α → Run β} (first : Keeps property computation)
    (second : ∀ value, property value → Keeps further (next value)) :
    Keeps further (computation >>= next) := by
  refine keeps_iff.mpr fun memory safe => ?_
  rw [StateT.run_bind]
  refine (keeps_iff.mp first memory safe).bind fun between kept => ?_
  exact keeps_iff.mp (second between.1 kept.1) between.2 kept.2

theorem Keeps.throw_expected (holds : Expected failure) :
    Keeps property (MonadExcept.throw failure : Run α) :=
  keeps_iff.mpr fun _ _ => holds

/-- A failure for a reason that lies in host values. -/
theorem Keeps.throw (failure : Failure) (kind : failure.kind?.isSome = true) :
    Keeps property (throw failure : Run α) :=
  .throw_expected (expected failure kind)

theorem Keeps.throw_bind {next : β → Run α} (kind : failure.kind?.isSome = true) :
    Keeps property (MonadExcept.throw failure >>= next) :=
  (Keeps.throw failure kind : Keeps (fun _ => False) _).bind fun _ never => never.elim

theorem Keeps.argumentFailure (text : String) :
    Keeps property (Host.argumentFailure text : Run α) :=
  .throw _ rfl

/-- A step that does not look at the memory. -/
theorem Keeps.lift (returns : Returns property step) : Keeps property (liftM step : Run α) := by
  refine keeps_iff.mpr fun memory safe => ?_
  cases step with
  | error failure => exact expected failure returns
  | ok value => exact ⟨returns, safe⟩

theorem Keeps.lift_any (hostOnly : HostOnly step) : Keeps (fun _ => True) (liftM step : Run α) :=
  .lift hostOnly.endsIn

theorem Keeps.mapM {step : β → Run α} (each : ∀ item ∈ items, Keeps property (step item)) :
    Keeps (∀ result ∈ ·, property result) (items.mapM step) := by
  induction items with
  | nil => exact .pure (List.forall_mem_nil _)
  | cons item rest ih =>
    rw [List.mapM_cons]
    obtain ⟨here, others⟩ := List.forall_mem_cons.mp each
    apply here.bind
    intro first holds
    apply (ih others).bind
    intro more moreHold
    exact .pure (List.forall_mem_cons.mpr ⟨holds, moreHold⟩)

theorem Keeps.foldlM {step : α → β → Run α} (holds : property start)
    (each : ∀ item ∈ items, ∀ before, property before → Keeps property (step before item)) :
    Keeps property (items.foldlM step start) := by
  induction items generalizing start with
  | nil => exact .pure holds
  | cons item rest ih =>
    rw [List.foldlM_cons]
    obtain ⟨here, others⟩ := List.forall_mem_cons.mp each
    exact (here start holds).bind fun _ kept => ih kept others

theorem Keeps.forIn {body : β → α → Run (ForInStep α)}
    (each : ∀ item before, Keeps (fun _ => True) (body item before)) :
    Keeps (fun _ => True) (forIn items start body) := by
  induction items generalizing start with
  | nil =>
    rw [List.forIn_nil]
    exact .pure trivial
  | cons item rest ih =>
    rw [List.forIn_cons]
    apply (each item start).bind
    intro stepped _
    split
    · exact .pure trivial
    · exact ih

end

theorem Keeps.modifyGet {change : Memory → α × Memory}
    (kept : ∀ memory : Memory, memory.Safe →
      property (change memory).1 ∧ (change memory).2.Safe) :
    Keeps property (modifyGet change : Run α) :=
  keeps_iff.mpr kept

theorem Keeps.modify {change : Memory → Memory} {property : PUnit → Prop} (holds : property ⟨⟩)
    (kept : ∀ memory : Memory, memory.Safe → (change memory).Safe) :
    Keeps property (modify change : Run PUnit) :=
  .modifyGet fun memory safe => ⟨holds, kept memory safe⟩

theorem Keeps.get : Keeps Memory.Safe (get : Run Memory) :=
  keeps_iff.mpr fun _ safe => ⟨safe, safe⟩

end

/-! ## The primitives -/

/-- What is not about the result. -/
abbrev anything {α : Type} : α → Prop := fun _ => True

theorem identity_keeps : Keeps anything identity :=
  .modifyGet fun _ safe => ⟨trivial, safe.globals, safe.cells, safe.iterations⟩

theorem settled_keeps {value : Value} (safe : value.Safe) :
    Keeps Value.Safe (settled value) := by
  unfold settled
  split
  · apply identity_keeps.bind
    intro number _
    exact .pure (.of_none trivial rfl)
  · exact .pure safe

theorem declare_keeps (names : List String) : Keeps anything (declare names) := by
  apply Keeps.modifyGet
  intro memory safe
  refine ⟨trivial, safe.globals, ?_, safe.iterations⟩
  intro value member
  rcases Array.mem_append.mp member with old | new
  · exact safe.cells value old
  · exact absurd (Array.eq_of_mem_replicate new) (Option.some_ne_none value)

theorem assign_keeps {value : Value} (cell : Nat) (safe : value.Safe) :
    Keeps anything (assign cell value) := by
  apply Keeps.modify trivial
  intro memory memorySafe
  refine ⟨memorySafe.globals, ?_, memorySafe.iterations⟩
  intro other member
  rcases Array.mem_or_eq_of_mem_setIfInBounds member with old | new
  · exact memorySafe.cells other old
  · cases new
    exact safe

theorem declareWith_keeps {entries : List (String × Value)}
    (safe : ∀ entry ∈ entries, entry.2.Safe) : Keeps anything (declareWith entries) := by
  apply Keeps.modifyGet
  intro memory memorySafe
  refine ⟨trivial, memorySafe.globals, ?_, memorySafe.iterations⟩
  intro value member
  rcases Array.mem_append.mp member with old | new
  · exact memorySafe.cells value old
  · obtain ⟨entry, entryMember, same⟩ := List.mem_map.mp (List.mem_toArray.mp new)
    cases same
    exact safe entry entryMember

theorem read?_keeps (cell : Nat) : Keeps (∀ value ∈ ·, value.Safe) (read? cell) := by
  apply Keeps.get.bind
  intro memory safe
  apply Keeps.pure
  intro value found
  exact safe.cells value (Array.mem_of_getElem? (Option.join_eq_some_iff.mp found))

theorem begin_keeps {iteration : Iteration} (safe : iteration.Safe) :
    Keeps anything (begin iteration) := by
  apply Keeps.modifyGet
  intro memory memorySafe
  refine ⟨trivial, memorySafe.globals, memorySafe.cells, ?_⟩
  intro other member
  rcases Array.mem_push.mp member with old | new
  · exact memorySafe.iterations other old
  · rw [new]
    exact safe

theorem iteration_keeps (reference : Nat) : Keeps Iteration.Safe (iteration reference) := by
  apply Keeps.get.bind
  intro memory safe
  apply Keeps.pure
  cases standing : memory.iterations[reference]? with
  | none => exact ⟨allSafe_nil, fun failure never => (nomatch never)⟩
  | some found => exact safe.iterations found (Array.mem_of_getElem? standing)

theorem proceed_keeps {iteration : Iteration} (reference : Nat) (safe : iteration.Safe) :
    Keeps anything (proceed reference iteration) := by
  apply Keeps.modify trivial
  intro memory memorySafe
  refine ⟨memorySafe.globals, memorySafe.cells, ?_⟩
  intro other member
  rcases Array.mem_or_eq_of_mem_setIfInBounds member with old | new
  · exact memorySafe.iterations other old
  · rw [new]
    exact safe

theorem nested_keeps {α : Type} {property : α → Prop} {computation : Run α}
    (kept : Keeps property computation) : Keeps property (nested computation) := by
  unfold nested
  apply Keeps.get.bind
  intro memory _
  dsimp only
  split
  · exact .throw_bind rfl
  · apply (Keeps.modify trivial ?_ : Keeps anything _).bind
    · intro _ _
      apply kept.bind
      intro result holds
      apply (Keeps.modify trivial ?_ : Keeps anything _).bind
      · intro _ _
        exact .pure holds
      · exact fun _ safe => ⟨safe.globals, safe.cells, safe.iterations⟩
    · exact fun _ safe => ⟨safe.globals, safe.cells, safe.iterations⟩

end Run

/-! ## Iterating and reading names -/

theorem safe_text (content : String) : (Value.text content).Safe :=
  .of_none trivial rfl

theorem safe_member {words : Vocabulary} {word : Member} (known : words ∈ Vocabulary.all)
    (member : word ∈ words.members) : (Value.member word).Safe :=
  .of_none ⟨words, known, member⟩ rfl

theorem plainItems?_safe {value : Value} {items : List Value} (safe : value.Safe)
    (found : plainItems? value = some items) : AllSafe items := by
  have texts : ∀ content : String, AllSafe (content.toList.map fun character =>
      .text (String.singleton character)) := by
    intro content item member
    obtain ⟨character, -, rfl⟩ := List.mem_map.mp member
    exact safe_text _
  unfold plainItems? at found
  split at found
  · cases found
    exact fun _ => safe.part
  · cases found
    exact fun _ => safe.part
  · cases found
    exact fun item member => safe.part (List.mem_append_left _ member)
  · cases found
    exact fun _ => safe.part
  · cases found
    exact fun item member => safe.part (mem_of_mem_walkOrder member)
  · cases found
    exact fun item member => safe.part (mem_of_mem_walkOrder member)
  · next words =>
    cases found
    intro item member
    obtain ⟨word, wordMember, rfl⟩ := List.mem_map.mp member
    exact safe_member safe.wellMade wordMember
  · obtain ⟨content, -, rfl⟩ := Option.map_eq_some_iff.mp found
    exact texts content

theorem iterate_keeps {value : Value} (safe : value.Safe) :
    Run.Keeps Run.anything (iterate value) := by
  unfold iterate
  split
  · exact .pure trivial
  · exact .throw _ rfl
  · exact Run.begin_keeps ⟨fun item member => safe.part member, safe.proper⟩
  · exact Run.begin_keeps trivial
  · split
    · next items found =>
      refine Run.begin_keeps ⟨plainItems?_safe safe found, ?_⟩
      intro failure never
      cases never
    · exact .throw _ rfl

theorem safe_of_ite {condition : Prop} [Decidable condition] {value result : Value}
    {otherwise : Option Value} (here : value.Safe)
    (further : ∀ other, otherwise = some other → other.Safe)
    (found : (if condition then some value else otherwise) = some result) : result.Safe := by
  split at found
  · cases found
    exact here
  · exact further result found

theorem builtinValue?_safe {name : String} {value : Value}
    (found : builtinValue? name = some value) : value.Safe := by
  unfold builtinValue? at found
  revert value
  -- The names are looked at one after the other, and each stands for a value without parts.
  iterate 11
    intro value found
    refine safe_of_ite ?_ ?_ found
    · exact .of_none trivial rfl
    clear found value
  intro value absent
  cases absent

theorem readName_keeps (frame : Frame) (identifier : String) :
    Run.Keeps Value.Safe (readName frame identifier) := by
  unfold readName
  split
  · next cell _ =>
    apply (Run.read?_keeps cell).bind
    intro found safe
    split
    · next value => exact .pure (safe value rfl)
    · split
      · exact .throw _ rfl
      · exact .throw _ rfl
  · apply Run.Keeps.get.bind
    intro memory safe
    split
    · next value found => exact .pure (safe.globals _ (Table.mem_of_get? found))
    · split
      · next value found => exact .pure (builtinValue?_safe found)
      · exact .throw _ rfl

end Host

end TypedMarkup
