import TypedMarkup.Host.Evaluate

/-!
Contract: what is met in going through a value.

Owns: `Host.Traversed`, which goes through a value from end to end, and `Host.Contains`, which says
what is met on the way and how deep inside of the value. Items are taken one by one, and each is
gone through before the next one is taken, so that both are about one order of events also where
items are computed as they are taken. Texts are not taken apart.

Going through a value from a given memory can end in one way only.
-/

namespace TypedMarkup

/-- Whether a value is not taken apart: a text, or a value without items. -/
def Value.isWhole (value : Value) : Bool :=
  value.content?.isSome || !value.isIterable

namespace Host

/-- What is gone through: a value, values in a row, or the rest of an iteration. -/
inductive Course where
  | value (value : Value)
  | row (values : List Value)
  | rest (reference : Nat)

/-- The items of a value are at hand, or an iteration over them has begun. -/
inductive Opened : Value → Memory → Course → Memory → Prop where
  | items {value : Value} {memory : Memory} {items : List Value}
      (found : plainItems? value = some items) : Opened value memory (.row items) memory
  | iteration {value : Value} {memory begun : Memory} {reference : Nat}
      (noItems : plainItems? value = none)
      (begins : (iterate value).run memory = .ok (reference, begun)) :
      Opened value memory (.rest reference) begun

/-- A course is gone through from end to end; the memories are those before and after. -/
inductive Traversed : Course → Memory → Memory → Prop where
  | whole {value : Value} {memory : Memory} (whole : value.isWhole = true) :
      Traversed (.value value) memory memory
  | parts {value : Value} {course : Course} {memory begun after : Memory}
      (divided : value.isWhole = false) (opened : Opened value memory course begun)
      (through : Traversed course begun after) : Traversed (.value value) memory after
  | nil {memory : Memory} : Traversed (.row []) memory memory
  | cons {value : Value} {others : List Value} {memory between after : Memory}
      (first : Traversed (.value value) memory between)
      (further : Traversed (.row others) between after) :
      Traversed (.row (value :: others)) memory after
  | finished {reference : Nat} {memory after : Memory}
      (ended : (pull reference).run memory = .ok (none, after)) :
      Traversed (.rest reference) memory after
  | taken {reference : Nat} {item : Value} {memory between inner after : Memory}
      (pulled : (pull reference).run memory = .ok (some item, between))
      (first : Traversed (.value item) between inner)
      (further : Traversed (.rest reference) inner after) :
      Traversed (.rest reference) memory after

/-- Going through a course comes to a value, so many levels inside of it. -/
inductive Contains : Course → Memory → (level : Nat) → Value → Prop where
  | self {value : Value} {memory : Memory} : Contains (.value value) memory 0 value
  | part {value found : Value} {course : Course} {memory begun : Memory} {level : Nat}
      (divided : value.isWhole = false) (opened : Opened value memory course begun)
      (inside : Contains course begun level found) :
      Contains (.value value) memory (level + 1) found
  | first {value found : Value} {others : List Value} {memory : Memory} {level : Nat}
      (inside : Contains (.value value) memory level found) :
      Contains (.row (value :: others)) memory level found
  | further {value found : Value} {others : List Value} {memory between : Memory} {level : Nat}
      (before : Traversed (.value value) memory between)
      (inside : Contains (.row others) between level found) :
      Contains (.row (value :: others)) memory level found
  | next {reference : Nat} {item found : Value} {memory between : Memory} {level : Nat}
      (pulled : (pull reference).run memory = .ok (some item, between))
      (inside : Contains (.value item) between level found) :
      Contains (.rest reference) memory level found
  | later {reference : Nat} {item found : Value} {memory between inner : Memory} {level : Nat}
      (pulled : (pull reference).run memory = .ok (some item, between))
      (before : Traversed (.value item) between inner)
      (inside : Contains (.rest reference) inner level found) :
      Contains (.rest reference) memory level found

theorem Opened.unique {value : Value} {memory begun otherBegun : Memory} {course other : Course}
    (first : Opened value memory course begun) (second : Opened value memory other otherBegun) :
    course = other ∧ begun = otherBegun := by
  cases first with
  | items found =>
    cases second with
    | items otherFound =>
      cases found.symm.trans otherFound
      exact ⟨rfl, rfl⟩
    | iteration noItems => cases found.symm.trans noItems
  | iteration noItems begins =>
    cases second with
    | items found => cases found.symm.trans noItems
    | iteration _ otherBegins =>
      cases begins.symm.trans otherBegins
      exact ⟨rfl, rfl⟩

theorem Traversed.unique {course : Course} {memory after other : Memory}
    (first : Traversed course memory after) (second : Traversed course memory other) :
    after = other := by
  induction first generalizing other with
  | whole whole =>
    cases second with
    | whole => rfl
    | parts divided => cases whole.symm.trans divided
  | parts divided opened _ ih =>
    cases second with
    | whole whole => cases whole.symm.trans divided
    | parts _ otherOpened through =>
      obtain ⟨rfl, rfl⟩ := opened.unique otherOpened
      exact ih through
  | nil =>
    cases second
    rfl
  | cons _ _ firstHypothesis furtherHypothesis =>
    cases second with
    | cons otherFirst otherFurther =>
      cases firstHypothesis otherFirst
      exact furtherHypothesis otherFurther
  | finished ended =>
    cases second with
    | finished otherEnded =>
      cases ended.symm.trans otherEnded
      rfl
    | taken pulled => cases ended.symm.trans pulled
  | taken pulled _ _ firstHypothesis furtherHypothesis =>
    cases second with
    | finished ended => cases pulled.symm.trans ended
    | taken otherPulled otherFirst otherFurther =>
      cases pulled.symm.trans otherPulled
      cases firstHypothesis otherFirst
      exact furtherHypothesis otherFurther

/-- A value that is not taken apart contains itself only. -/
theorem Contains.of_whole {value found : Value} {memory : Memory} {level : Nat}
    (contained : Contains (.value value) memory level found) (whole : value.isWhole = true) :
    found = value ∧ level = 0 := by
  cases contained with
  | self => exact ⟨rfl, rfl⟩
  | part divided => cases whole.symm.trans divided

theorem Contains.mem_of_row {items : List Value} {found : Value} {memory : Memory} {level : Nat}
    (contained : Contains (.row items) memory level found)
    (whole : ∀ item ∈ items, item.isWhole = true) : found ∈ items := by
  induction items generalizing memory with
  | nil => cases contained
  | cons item rest ih =>
    cases contained with
    | first inside =>
      rw [(inside.of_whole (whole item List.mem_cons_self)).1]
      exact List.mem_cons_self
    | further _ inside =>
      refine List.mem_cons_of_mem _ (ih inside fun other member => ?_)
      exact whole other (List.mem_cons_of_mem _ member)

/-- A value whose items are at hand is taken apart, unless it is a text. -/
theorem isWhole_of_plainItems? {value : Value} {items : List Value}
    (noText : value.content? = none) (found : plainItems? value = some items) :
    value.isWhole = false := by
  cases value with
  | text | checked | member => cases noText
  | list | tuple | dict | spaced | plainSet | vocabulary => rfl
  | _ => cases found

end Host

end TypedMarkup
