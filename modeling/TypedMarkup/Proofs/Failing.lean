import TypedMarkup.Proofs.Success

/-!
Contract: what a computation that fails tells about its steps.

Owns: for `bind`, `map`, `mapError`, `mapM` and `foldlM` in `Except`, which step has failed and what
was done before it. `fails` decides what stops a closed computation. `FailsOnly` is what all
failures of a computation have in common, and `EndsIn` is this and what its values have in common,
both put together from its steps.
-/

namespace TypedMarkup

section

variable {ε φ α β : Type}

section

variable {next : α → Except ε β} {failure : ε} {step : Except ε α} {items : List α}

theorem bind_eq_error :
    step >>= next = .error failure ↔
      step = .error failure ∨ ∃ value, step = .ok value ∧ next value = .error failure := by
  cases step with
  | error | ok => simp [bind, Except.bind]

theorem pure_ne_error {value : α} : (pure value : Except ε α) ≠ .error failure := by
  simp [pure, Except.pure]

theorem map_eq_error {change : α → β} :
    step.map change = .error failure ↔ step = .error failure := by
  cases step with
  | error | ok => simp [Except.map]

theorem mapError_eq_error {change : ε → φ} {failure : φ} :
    step.mapError change = .error failure ↔
      ∃ first, step = .error first ∧ change first = failure := by
  cases step with
  | error | ok => simp [Except.mapError]

/-- Whether a computation ends in a failure that passes a test. -/
def fails (test : ε → Bool) : Except ε α → Bool
  | .ok _ => false
  | .error failure => test failure

theorem exists_of_fails {test : ε → Bool} (decided : fails test step = true) :
    ∃ failure, step = .error failure ∧ test failure = true := by
  cases step with
  | ok _ => cases decided
  | error failure => exact ⟨failure, rfl, decided⟩

/-- A run fails at some item, behind a run over the items before it. -/
theorem foldlM_eq_error {step : β → α → Except ε β} {start : β}
    (run : items.foldlM step start = .error failure) :
    ∃ before item after reached, items = before ++ item :: after ∧
      before.foldlM step start = .ok reached ∧ step reached item = .error failure := by
  induction items generalizing start with
  | nil => exact absurd run pure_ne_error
  | cons item rest ih =>
    rw [List.foldlM_cons, bind_eq_error] at run
    rcases run with failed | ⟨next, stepped, restFailed⟩
    · exact ⟨[], item, rest, start, rfl, rfl, failed⟩
    · obtain ⟨before, later, after, reached, rfl, ran, failed⟩ := ih restFailed
      refine ⟨item :: before, later, after, reached, rfl, ?_, failed⟩
      rw [List.foldlM_cons, bind_eq_ok]
      exact ⟨next, stepped, ran⟩

theorem mapM_eq_error {step : α → Except ε β} (run : items.mapM step = .error failure) :
    ∃ item ∈ items, step item = .error failure := by
  induction items with
  | nil => exact absurd run pure_ne_error
  | cons item rest ih =>
    rw [List.mapM_cons, bind_eq_error] at run
    rcases run with failed | ⟨first, -, restFailed⟩
    · exact ⟨item, List.mem_cons_self, failed⟩
    · rcases bind_eq_error.mp restFailed with failed | ⟨more, -, never⟩
      · obtain ⟨found, member, foundFailed⟩ := ih failed
        exact ⟨found, List.mem_cons_of_mem item member, foundFailed⟩
      · exact absurd never pure_ne_error

end

/-! ## What all failures have in common -/

/-- Every failure of a computation has a property. -/
def FailsOnly (property : ε → Prop) (step : Except ε α) : Prop :=
  ∀ failure, step = .error failure → property failure

namespace FailsOnly

variable {property : ε → Prop} {failure : ε} {next : α → Except ε β} {step : Except ε α}
  {items : List α}

@[simp]
theorem ok (value : α) : FailsOnly property (.ok value : Except ε α) := by
  intro failure never
  cases never

@[simp]
theorem pure (value : α) : FailsOnly property (Pure.pure value : Except ε α) :=
  .ok value

@[simp]
theorem error_iff : FailsOnly property (.error failure : Except ε α) ↔ property failure := by
  constructor
  · exact fun only => only failure rfl
  · intro holds other same
    cases same
    exact holds

@[simp]
theorem throw_iff : FailsOnly property (throw failure : Except ε α) ↔ property failure :=
  error_iff

theorem bind (first : FailsOnly property step)
    (further : ∀ value, step = .ok value → FailsOnly property (next value)) :
    FailsOnly property (step >>= next) := by
  intro failure failed
  rcases bind_eq_error.mp failed with stopped | ⟨value, returned, stopped⟩
  · exact first failure stopped
  · exact further value returned failure stopped

theorem throw_bind (holds : property failure) : FailsOnly property (throw failure >>= next) :=
  error_iff.mpr holds

theorem map {change : α → β} (only : FailsOnly property step) :
    FailsOnly property (step.map change) :=
  fun failure failed => only failure (map_eq_error.mp failed)

theorem mapError {change : ε → φ} {reported : φ → Prop}
    (only : FailsOnly (fun failure => reported (change failure)) step) :
    FailsOnly reported (step.mapError change) := by
  intro failure failed
  obtain ⟨first, stopped, rfl⟩ := mapError_eq_error.mp failed
  exact only first stopped

theorem mapM {step : α → Except ε β} (each : ∀ item ∈ items, FailsOnly property (step item)) :
    FailsOnly property (items.mapM step) := by
  intro failure failed
  obtain ⟨item, member, stopped⟩ := mapM_eq_error failed
  exact each item member failure stopped

theorem foldlM {step : β → α → Except ε β} {start : β}
    (each : ∀ reached, ∀ item ∈ items, FailsOnly property (step reached item)) :
    FailsOnly property (items.foldlM step start) := by
  intro failure failed
  obtain ⟨before, item, after, reached, rfl, -, stopped⟩ := foldlM_eq_error failed
  exact each reached item (by simp) failure stopped

end FailsOnly

/-! ## How a computation ends -/

/-- A computation returns a value with one property, or fails with a failure that has another. -/
def EndsIn (returned : α → Prop) (failed : ε → Prop) : Except ε α → Prop
  | .ok value => returned value
  | .error failure => failed failure

theorem FailsOnly.endsIn {failed : ε → Prop} {step : Except ε α} (only : FailsOnly failed step) :
    EndsIn (fun _ => True) failed step := by
  cases step with
  | ok value => trivial
  | error failure => exact only failure rfl

namespace EndsIn

variable {returned : α → Prop} {further : β → Prop} {failed : ε → Prop} {step : Except ε α}
  {value : α} {failure : ε}

@[simp]
theorem ok_iff : EndsIn returned failed (.ok value : Except ε α) ↔ returned value :=
  Iff.rfl

@[simp]
theorem error_iff : EndsIn returned failed (.error failure : Except ε α) ↔ failed failure :=
  Iff.rfl

@[simp]
theorem pure_iff : EndsIn returned failed (Pure.pure value : Except ε α) ↔ returned value :=
  Iff.rfl

@[simp]
theorem throw_iff : EndsIn returned failed (throw failure : Except ε α) ↔ failed failure :=
  Iff.rfl

theorem failsOnly (ends : EndsIn returned failed step) : FailsOnly failed step := by
  rintro failure rfl
  exact ends

theorem imp {weaker : α → Prop} (ends : EndsIn returned failed step)
    (implies : ∀ value, returned value → weaker value) : EndsIn weaker failed step := by
  cases step with
  | ok value => exact implies value ends
  | error failure => exact ends

theorem and_eq (ends : EndsIn returned failed step) :
    EndsIn (fun value => step = .ok value ∧ returned value) failed step := by
  cases step with
  | ok value => exact ⟨rfl, ends⟩
  | error failure => exact ends

theorem bind {next : α → Except ε β} (first : EndsIn returned failed step)
    (second : ∀ value, returned value → EndsIn further failed (next value)) :
    EndsIn further failed (step >>= next) := by
  cases step with
  | ok value => exact second value first
  | error failure => exact first

theorem map {change : α → β} (first : EndsIn returned failed step)
    (second : ∀ value, returned value → further (change value)) :
    EndsIn further failed (step.map change) := by
  cases step with
  | ok value => exact second value first
  | error failure => exact first

theorem foldlM {step : α → β → Except ε α} {items : List β} {start : α} (holds : returned start)
    (each : ∀ item ∈ items, ∀ before, returned before → EndsIn returned failed (step before item)) :
    EndsIn returned failed (items.foldlM step start) := by
  induction items generalizing start with
  | nil => exact holds
  | cons item rest ih =>
    rw [List.foldlM_cons]
    obtain ⟨here, others⟩ := List.forall_mem_cons.mp each
    exact (here start holds).bind fun _ kept => ih kept others

end EndsIn

end

end TypedMarkup
