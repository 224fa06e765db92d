import Mathlib.Data.List.Basic

/-!
Contract: computations that come to the same.

Owns: `Mirrors`, which compares two computations by their values: both have one, or neither. Errors
are not compared, so the two may report their failures differently. `Corresponds` compares both
values and errors, each by a relation.
-/

namespace TypedMarkup

/-- One computation ends in the changed value of another, and fails where the other fails. -/
def Mirrors {ε φ α β : Type} (change : α → β) : Except φ β → Except ε α → Prop
  | .ok mirrored, .ok value => mirrored = change value
  | .error _, .error _ => True
  | _, _ => False

namespace Mirrors

section

variable {ε φ α β γ δ : Type} {change : α → β} {mirror : Except φ β} {step : Except ε α}

theorem refl (step : Except ε α) : Mirrors id step step := by
  cases step with
  | ok value => rfl
  | error failure => trivial

theorem bind {further : γ → δ} {mirrorNext : β → Except φ δ} {next : α → Except ε γ}
    (first : Mirrors change mirror step)
    (second : ∀ value, Mirrors further (mirrorNext (change value)) (next value)) :
    Mirrors further (mirror >>= mirrorNext) (step >>= next) := by
  cases mirror with
  | ok mirrored =>
    cases step with
    | ok value =>
      cases (show mirrored = change value from first)
      exact second value
    | error failure => exact absurd first id
  | error fault =>
    cases step with
    | ok value => exact absurd first id
    | error failure => trivial

theorem mapError {φ' ε' : Type} {tellMirror : φ → φ'} {tell : ε → ε'}
    (first : Mirrors change mirror step) :
    Mirrors change (mirror.mapError tellMirror) (step.mapError tell) := by
  cases mirror <;> cases step <;> exact first

/-- Two checks that decide the same. -/
theorem of_iff {mirror : Except φ Unit} {step : Except ε Unit}
    (same : mirror = .ok () ↔ step = .ok ()) : Mirrors id mirror step := by
  cases mirror with
  | ok _ =>
    rw [same.mp rfl]
    rfl
  | error fault =>
    cases step with
    | ok _ => cases same.mpr rfl
    | error failure => trivial

theorem mapM {shift : γ → δ} {mirrorStep : δ → Except φ β} {step : γ → Except ε α}
    {items : List γ} (each : ∀ item ∈ items, Mirrors change (mirrorStep (shift item)) (step item)) :
    Mirrors (List.map change) ((items.map shift).mapM mirrorStep) (items.mapM step) := by
  induction items with
  | nil => rfl
  | cons item rest ih =>
    obtain ⟨here, others⟩ := List.forall_mem_cons.mp each
    rw [List.map_cons, List.mapM_cons, List.mapM_cons]
    apply here.bind
    intro first
    apply (ih others).bind
    intro more
    rfl

theorem foldlM {shift : γ → δ} {mirrorStep : α → δ → Except φ α} {step : α → γ → Except ε α}
    {items : List γ}
    (each : ∀ item ∈ items, ∀ state, Mirrors id (mirrorStep state (shift item)) (step state item))
    (start : α) :
    Mirrors id ((items.map shift).foldlM mirrorStep start) (items.foldlM step start) := by
  induction items generalizing start with
  | nil => rfl
  | cons item rest ih =>
    obtain ⟨here, others⟩ := List.forall_mem_cons.mp each
    rw [List.map_cons, List.foldlM_cons, List.foldlM_cons]
    apply (here start).bind
    intro next
    exact ih others next

/-- Two computations with the same values have one, or both fail. -/
theorem cases_id {mirror : Except φ α} (mirrors : Mirrors id mirror step) :
    (∃ value, mirror = .ok value ∧ step = .ok value) ∨
      ∃ fault failure, mirror = .error fault ∧ step = .error failure := by
  cases mirror with
  | ok found =>
    cases step with
    | ok value => exact .inl ⟨found, rfl, congrArg Except.ok (Eq.symm mirrors)⟩
    | error failure => exact absurd mirrors id
  | error fault =>
    cases step with
    | ok value => exact absurd mirrors id
    | error failure => exact .inr ⟨fault, failure, rfl, rfl⟩

theorem eq_ok_iff (mirrors : Mirrors change mirror step) {mirrored : β} :
    mirror = .ok mirrored ↔ ∃ value, step = .ok value ∧ mirrored = change value := by
  cases mirror with
  | ok found =>
    cases step with
    | ok value =>
      cases (show found = change value from mirrors)
      simp [eq_comm]
    | error failure => exact absurd mirrors id
  | error fault =>
    cases step with
    | ok value => exact absurd mirrors id
    | error failure => simp

theorem id_eq_ok {mirror : Except φ α} (mirrors : Mirrors id mirror step) {value : α} :
    mirror = .ok value ↔ step = .ok value := by
  rw [mirrors.eq_ok_iff]
  simp

end

end Mirrors

/-- Two computations end in related values, or in related errors. -/
def Corresponds {ε φ α β : Type} (failures : ε → φ → Prop) (values : α → β → Prop) :
    Except ε α → Except φ β → Prop
  | .ok value, .ok other => values value other
  | .error failure, .error other => failures failure other
  | _, _ => False

namespace Corresponds

variable {ε φ α β γ δ : Type} {failures : ε → φ → Prop} {values : α → β → Prop}
  {further : γ → δ → Prop} {step : Except ε α} {other : Except φ β}

theorem bind {next : α → Except ε γ} {otherNext : β → Except φ δ}
    (first : Corresponds failures values step other)
    (second : ∀ value found, values value found →
      Corresponds failures further (next value) (otherNext found)) :
    Corresponds failures further (step >>= next) (other >>= otherNext) := by
  cases step with
  | ok value =>
    cases other with
    | ok found => exact second value found first
    | error failure => exact absurd first id
  | error failure =>
    cases other with
    | ok found => exact absurd first id
    | error found => exact first

theorem map {change : α → γ} {otherChange : β → δ} (first : Corresponds failures values step other)
    (second : ∀ value found, values value found → further (change value) (otherChange found)) :
    Corresponds failures further (step.map change) (other.map otherChange) := by
  cases step <;> cases other
  · exact first
  · exact absurd first id
  · exact absurd first id
  · exact second _ _ first

theorem imp {weaker : α → β → Prop} (corresponds : Corresponds failures values step other)
    (implied : ∀ value found, values value found → weaker value found) :
    Corresponds failures weaker step other := by
  cases step <;> cases other
  · exact corresponds
  · exact absurd corresponds id
  · exact absurd corresponds id
  · exact implied _ _ corresponds

theorem exists_left {found : β} (corresponds : Corresponds failures values step (.ok found)) :
    ∃ value, step = .ok value ∧ values value found := by
  cases step with
  | ok value => exact ⟨value, rfl, corresponds⟩
  | error failure => exact absurd corresponds id

end Corresponds

end TypedMarkup
