import TypedMarkup.Proofs.Host.Traversal
import TypedMarkup.Proofs.Schema.Fitting

/-!
Contract: what a value that could be fitted to a type was made of.

Owns: the inversion of `AttributeType.coerce`, type by type, and `Fitted`, the fitting of one item
after the other. Where the innermost values of a type are words or checked texts, fitting goes
through the whole value, so what the value contains has been fitted at its place.
-/

namespace TypedMarkup

open Host

/-! ## Computations that return -/

section

variable {α β : Type} {memory after : Memory}

theorem run_bind_eq_ok {computation : Run α} {next : α → Run β} {result : β} :
    (computation >>= next).run memory = .ok (result, after) ↔
      ∃ value between, computation.run memory = .ok (value, between) ∧
        (next value).run between = .ok (result, after) := by
  rw [StateT.run_bind, bind_eq_ok, Prod.exists]

theorem run_pure_eq_ok {value result : α} :
    (pure value : Run α).run memory = .ok (result, after) ↔ value = result ∧ memory = after := by
  rw [StateT.run_pure, pure_eq_ok, Prod.mk.injEq]

theorem run_lift_eq_ok {step : Except Failure α} {result : α} :
    (liftM step : Run α).run memory = .ok (result, after) ↔
      step = .ok result ∧ memory = after := by
  cases step with
  | error failure => exact iff_of_false (fun ran => by cases ran) (fun both => by cases both.1)
  | ok value =>
    constructor
    · intro ran
      cases ran
      exact ⟨rfl, rfl⟩
    · rintro ⟨same, rfl⟩
      cases same
      rfl

theorem run_throw_ne_ok {failure : Failure} {result : α} :
    (throw failure : Run α).run memory ≠ .ok (result, after) := by
  intro ran
  cases ran

end

/-! ## One item after the other -/

/-- What fitting gives for the items of a course, one by one. -/
inductive Fitted (fit : Value → Run Value) : Course → Memory → List Value → Memory → Prop where
  | nil {memory : Memory} : Fitted fit (.row []) memory [] memory
  | cons {value result : Value} {others results : List Value} {memory between after : Memory}
      (fitted : (fit value).run memory = .ok (result, between))
      (further : Fitted fit (.row others) between results after) :
      Fitted fit (.row (value :: others)) memory (result :: results) after
  | finished {reference : Nat} {memory after : Memory}
      (ended : (pull reference).run memory = .ok (none, after)) :
      Fitted fit (.rest reference) memory [] after
  | taken {reference : Nat} {item result : Value} {results : List Value}
      {memory between inner after : Memory}
      (pulled : (pull reference).run memory = .ok (some item, between))
      (fitted : (fit item).run between = .ok (result, inner))
      (further : Fitted fit (.rest reference) inner results after) :
      Fitted fit (.rest reference) memory (result :: results) after

section

variable {fit : Value → Run Value} {memory after : Memory} {results : List Value}

theorem fitted_of_mapM {items : List Value}
    (ran : (items.mapM fit).run memory = .ok (results, after)) :
    Fitted fit (.row items) memory results after := by
  induction items generalizing memory results with
  | nil =>
    rw [List.mapM_nil, run_pure_eq_ok] at ran
    obtain ⟨rfl, rfl⟩ := ran
    exact .nil
  | cons item rest ih =>
    rw [List.mapM_cons, run_bind_eq_ok] at ran
    obtain ⟨first, between, fitted, ranRest⟩ := ran
    obtain ⟨more, last, further, same⟩ := run_bind_eq_ok.mp ranRest
    obtain ⟨rfl, rfl⟩ := run_pure_eq_ok.mp same
    exact .cons fitted (ih further)

/-- The items of an iteration stand behind those that were fitted before. -/
theorem fitted_of_fitItems {reference fuel : Nat} {before : List Value}
    (ran : (fitItems fit reference fuel before).run memory = .ok (results, after)) :
    ∃ further, results = before.reverse ++ further ∧
      Fitted fit (.rest reference) memory further after := by
  induction fuel generalizing before memory with
  | zero =>
    rw [fitItems] at ran
    exact absurd ran run_throw_ne_ok
  | succ fuel ih =>
    rw [fitItems, run_bind_eq_ok] at ran
    obtain ⟨found, between, pulled, ranRest⟩ := ran
    cases found with
    | none =>
      obtain ⟨rfl, rfl⟩ := run_pure_eq_ok.mp ranRest
      exact ⟨[], (List.append_nil _).symm, .finished pulled⟩
    | some item =>
      obtain ⟨result, inner, fitted, ranFurther⟩ := run_bind_eq_ok.mp ranRest
      obtain ⟨further, rfl, rest⟩ := ih ranFurther
      refine ⟨result :: further, ?_, .taken pulled fitted rest⟩
      rw [List.reverse_cons, List.append_assoc, List.singleton_append]

end

/-- Whatever is fitted has been gone through. -/
def GoesThrough (fit : Value → Run Value) : Prop :=
  ∀ value memory result after, (fit value).run memory = .ok (result, after) →
    Traversed (.value value) memory after

section

variable {fit : Value → Run Value} {course : Course} {memory after : Memory}
  {results : List Value}

theorem Fitted.traversed (fitted : Fitted fit course memory results after)
    (goesThrough : GoesThrough fit) : Traversed course memory after := by
  induction fitted with
  | nil => exact .nil
  | cons fitted _ ih =>
    exact .cons (goesThrough _ _ _ _ fitted) ih
  | finished ended => exact .finished ended
  | taken pulled fitted _ ih =>
    exact .taken pulled (goesThrough _ _ _ _ fitted) ih

theorem Fitted.exists_of_contains (fitted : Fitted fit course memory results after)
    (goesThrough : GoesThrough fit) {level : Nat} {found : Value}
    (contained : Contains course memory level found) :
    ∃ item before result behind, (fit item).run before = .ok (result, behind) ∧
      Contains (.value item) before level found := by
  induction fitted with
  | nil => cases contained
  | cons fitted _ ih =>
    cases contained with
    | first inside => exact ⟨_, _, _, _, fitted, inside⟩
    | further before inside =>
      cases before.unique (goesThrough _ _ _ _ fitted)
      exact ih inside
  | finished ended =>
    cases contained with
    | next pulled | later pulled => cases ended.symm.trans pulled
  | taken pulled fitted _ ih =>
    cases contained with
    | next otherPulled inside =>
      cases pulled.symm.trans otherPulled
      exact ⟨_, _, _, _, fitted, inside⟩
    | later otherPulled before inside =>
      cases pulled.symm.trans otherPulled
      cases before.unique (goesThrough _ _ _ _ fitted)
      exact ih inside

/-- Each result comes from an item, and the course contains what the item contains. -/
theorem Fitted.exists_of_mem (fitted : Fitted fit course memory results after) {result : Value}
    (member : result ∈ results) :
    ∃ item before behind, (fit item).run before = .ok (result, behind) ∧
      (GoesThrough fit → ∀ level found, Contains (.value item) before level found →
        Contains course memory level found) := by
  induction fitted with
  | nil => cases member
  | cons fitted _ ih =>
    rcases List.mem_cons.mp member with rfl | further
    · exact ⟨_, _, _, fitted, fun _ _ _ inside => .first inside⟩
    · obtain ⟨item, before, behind, itemFitted, within⟩ := ih further
      refine ⟨item, before, behind, itemFitted, fun goesThrough level found inside => ?_⟩
      exact .further (goesThrough _ _ _ _ fitted) (within goesThrough level found inside)
  | finished => cases member
  | taken pulled fitted _ ih =>
    rcases List.mem_cons.mp member with rfl | further
    · exact ⟨_, _, _, fitted, fun _ _ _ inside => .next pulled inside⟩
    · obtain ⟨item, before, behind, itemFitted, within⟩ := ih further
      refine ⟨item, before, behind, itemFitted, fun goesThrough level found inside => ?_⟩
      exact .later pulled (goesThrough _ _ _ _ fitted) (within goesThrough level found inside)

end

/-! ## Types -/

namespace AttributeType

/-- The type of the values that all collections around it hold in the end. -/
def innermost : AttributeType → AttributeType
  | spaced _ item => item.innermost
  | other => other

/-- How many collections there are around the innermost type. -/
def layers : AttributeType → Nat
  | spaced _ item => item.layers + 1
  | _ => 0

/-- The values of a type are texts of some class, or collections of such texts. -/
def Textual : AttributeType → Prop
  | vocabulary _ => True
  | checked _ => True
  | spaced _ item => item.Textual
  | _ => False

end AttributeType

section

variable {memory after : Memory} {value result : Value} {content : String} {type : AttributeType}
  {item : AttributeType} {container : Container}

theorem run_parseContent_eq_ok :
    (liftM (type.parseContent content) : Run Value).run memory = .ok (result, after) ↔
      type.parse content = .ok result ∧ memory = after := by
  rw [run_lift_eq_ok, AttributeType.parseContent, mapError_eq_ok]

/-- A plain text is fitted by reading it. -/
theorem coerce_text (type : AttributeType) (literal : String) :
    type.coerce (.text literal) = liftM (type.parseContent literal) := by
  cases type <;> rfl

theorem coerce_spaced_of_content? (found : value.content? = some content) :
    (AttributeType.spaced container item).coerce value =
      liftM ((AttributeType.spaced container item).parseContent content) := by
  rw [AttributeType.coerce.eq_def]
  dsimp only
  rw [found]

theorem run_wrongType_ne_ok :
    (liftM (type.wrongType value) : Run Value).run memory ≠ .ok (result, after) := by
  intro ran
  cases ran

/-- A word of the vocabulary is taken as it is, and any other text but a word is read. -/
theorem coerce_vocabulary_eq_ok {words : Vocabulary}
    (fitted : ((AttributeType.vocabulary words).coerce value).run memory = .ok (result, after)) :
    memory = after ∧
      ((∃ word, value = .member word ∧ word.vocabulary = words.name ∧ result = value) ∨
        (∀ word, value ≠ .member word) ∧ ∃ content, value.content? = some content ∧
          (AttributeType.vocabulary words).parse content = .ok result) := by
  rw [AttributeType.coerce.eq_def] at fitted
  dsimp only at fitted
  split at fitted
  · next word =>
    split at fitted
    · next own =>
      obtain ⟨rfl, same⟩ := run_pure_eq_ok.mp fitted
      exact ⟨same, .inl ⟨word, rfl, own, rfl⟩⟩
    · exact absurd fitted run_throw_ne_ok
  · next noWord =>
    split at fitted
    · next content found =>
      obtain ⟨parsed, same⟩ := run_parseContent_eq_ok.mp fitted
      exact ⟨same, .inr ⟨noWord, content, found, parsed⟩⟩
    · exact absurd fitted run_wrongType_ne_ok

/-- A text of the class is taken as it is, and any other text is read. -/
theorem coerce_checked_eq_ok {kind : CheckedText}
    (fitted : ((AttributeType.checked kind).coerce value).run memory = .ok (result, after)) :
    memory = after ∧ ∃ content, value.content? = some content ∧
      (value = .checked kind content ∧ result = value ∨
        (AttributeType.checked kind).parse content = .ok result) := by
  rw [AttributeType.coerce.eq_def] at fitted
  dsimp only at fitted
  split at fitted
  · next found content =>
    split at fitted
    · next same =>
      subst same
      obtain ⟨rfl, unchanged⟩ := run_pure_eq_ok.mp fitted
      exact ⟨unchanged, content, rfl, .inl ⟨rfl, rfl⟩⟩
    · obtain ⟨parsed, unchanged⟩ := run_parseContent_eq_ok.mp fitted
      exact ⟨unchanged, content, rfl, .inr parsed⟩
  · split at fitted
    · next content found =>
      obtain ⟨parsed, unchanged⟩ := run_parseContent_eq_ok.mp fitted
      exact ⟨unchanged, content, found, .inr parsed⟩
    · exact absurd fitted run_wrongType_ne_ok

/-- A text is read as a collection; of any other value the items are fitted one by one. -/
theorem coerce_spaced_eq_ok
    (fitted : ((AttributeType.spaced container item).coerce value).run memory =
      .ok (result, after)) :
    (∃ content, value.content? = some content ∧ memory = after ∧
      (AttributeType.spaced container item).parse content = .ok result) ∨
    ∃ course begun results, value.isWhole = false ∧ Opened value memory course begun ∧
      Fitted item.coerce course begun results after ∧ result = container.collect results := by
  rw [AttributeType.coerce.eq_def] at fitted
  dsimp only at fitted
  split at fitted
  · next content found =>
    obtain ⟨parsed, unchanged⟩ := run_parseContent_eq_ok.mp fitted
    exact .inl ⟨content, found, unchanged, parsed⟩
  · next items noText found =>
    obtain ⟨results, between, ran, same⟩ := run_bind_eq_ok.mp fitted
    obtain ⟨rfl, rfl⟩ := run_pure_eq_ok.mp same
    exact .inr ⟨_, _, results, isWhole_of_plainItems? noText found, .items found,
      fitted_of_mapM ran, rfl⟩
  · next noText noItems =>
    split at fitted
    · next iterable =>
      obtain ⟨reference, begun, begins, ranItems⟩ := run_bind_eq_ok.mp fitted
      obtain ⟨results, between, ran, same⟩ := run_bind_eq_ok.mp ranItems
      obtain ⟨rfl, rfl⟩ := run_pure_eq_ok.mp same
      obtain ⟨further, behind, fittedAll⟩ := fitted_of_fitItems ran
      rw [List.reverse_nil, List.nil_append] at behind
      have divided : value.isWhole = false := by
        rw [Value.isWhole, noText, iterable]
        rfl
      exact .inr ⟨_, begun, further, divided, .iteration noItems begins, fittedAll,
        by rw [behind]⟩
    · exact absurd fitted run_wrongType_ne_ok

end

theorem isWhole_of_content? {value : Value} {content : String}
    (found : value.content? = some content) : value.isWhole = true := by
  rw [Value.isWhole, found]
  rfl

/-- Fitting to a textual type goes through the whole value: what it ends in are texts, which are
not taken apart. -/
theorem AttributeType.Textual.goesThrough {type : AttributeType} (textual : type.Textual) :
    GoesThrough type.coerce := by
  induction type with
  | vocabulary words =>
    intro value memory result after fitted
    obtain ⟨rfl, ⟨word, rfl, -⟩ | ⟨-, content, found, -⟩⟩ := coerce_vocabulary_eq_ok fitted
    · exact .whole rfl
    · exact .whole (isWhole_of_content? found)
  | checked kind =>
    intro value memory result after fitted
    obtain ⟨rfl, content, found, -⟩ := coerce_checked_eq_ok fitted
    exact .whole (isWhole_of_content? found)
  | spaced container item ih =>
    intro value memory result after fitted
    rcases coerce_spaced_eq_ok fitted with
      ⟨content, found, rfl, -⟩ | ⟨course, begun, results, divided, opened, fittedAll, -⟩
    · exact .whole (isWhole_of_content? found)
    · exact .parts divided opened (fittedAll.traversed (ih textual))
  | string | bool | integer | real => cases textual

end TypedMarkup
