import Mathlib.Data.List.Forall2

/-!
Contract: what a computation that succeeds tells about its steps.

Owns: the inversion of `bind`, `map`, `mapError`, `mapM` and `foldlM` in `Except`. A proof about a
chain of checks opens the chain with these and never unfolds the monad. `yields` decides what a
closed computation ends in.
-/

namespace TypedMarkup

section

variable {ε φ α β : Type} {result : β} {step : Except ε α} {items : List α} {results : List β}
  {related : α → β → Prop}

theorem bind_eq_ok {next : α → Except ε β} :
    step >>= next = .ok result ↔ ∃ value, step = .ok value ∧ next value = .ok result := by
  cases step with
  | error | ok => simp [bind, Except.bind]

theorem pure_eq_ok {value result : α} :
    (pure value : Except ε α) = .ok result ↔ value = result := by
  simp [pure, Except.pure]

theorem throw_ne_ok {failure : ε} {result : α} :
    (throw failure : Except ε α) ≠ .ok result := by
  simp [throw, throwThe, MonadExceptOf.throw]

theorem map_eq_ok {change : α → β} :
    step.map change = .ok result ↔ ∃ value, step = .ok value ∧ change value = result := by
  cases step with
  | error | ok => simp [Except.map]

theorem mapError_eq_ok {change : ε → φ} {result : α} :
    step.mapError change = .ok result ↔ step = .ok result := by
  cases step with
  | error | ok => simp [Except.mapError]

/-- Whether a computation ends in a value that passes a test. -/
def yields (test : α → Bool) : Except ε α → Bool
  | .ok value => test value
  | .error _ => false

theorem exists_of_yields {test : α → Bool} (decided : yields test step = true) :
    ∃ value, step = .ok value ∧ test value = true := by
  cases step with
  | ok value => exact ⟨value, rfl, decided⟩
  | error _ => cases decided

/-- A list is worked through item by item, so the results stand where their items stood. -/
theorem mapM_eq_ok {step : α → Except ε β} :
    items.mapM step = .ok results ↔
      List.Forall₂ (fun item result => step item = .ok result) items results := by
  induction items generalizing results with
  | nil =>
    rw [List.mapM_nil, pure_eq_ok, List.forall₂_nil_left_iff]
    exact eq_comm
  | cons item rest ih =>
    rw [List.mapM_cons, bind_eq_ok, List.forall₂_cons_left_iff]
    constructor
    · rintro ⟨first, stepped, others⟩
      obtain ⟨more, restStepped, same⟩ := bind_eq_ok.mp others
      exact ⟨first, more, stepped, ih.mp restStepped, (pure_eq_ok.mp same).symm⟩
    · rintro ⟨first, more, stepped, restStepped, rfl⟩
      exact ⟨first, stepped,
        bind_eq_ok.mpr ⟨more, ih.mpr restStepped, pure_eq_ok.mpr rfl⟩⟩

/-- Whatever stands in the second of two matched lists stands across from something. -/
theorem exists_left_of_mem (matched : List.Forall₂ related items results)
    (member : result ∈ results) : ∃ item ∈ items, related item result := by
  induction matched with
  | nil => cases member
  | @cons item other _ _ here _ ih =>
    rcases List.mem_cons.mp member with rfl | further
    · exact ⟨item, List.mem_cons_self, here⟩
    · obtain ⟨found, among, across⟩ := ih further
      exact ⟨found, List.mem_cons_of_mem item among, across⟩

theorem exists_right_of_mem {item : α} (matched : List.Forall₂ related items results)
    (member : item ∈ items) : ∃ result ∈ results, related item result :=
  exists_left_of_mem matched.flip member

theorem exists_forall₂ (each : ∀ item ∈ items, ∃ result, related item result) :
    ∃ results, List.Forall₂ related items results := by
  induction items with
  | nil => exact ⟨[], .nil⟩
  | cons item rest ih =>
    obtain ⟨⟨result, here⟩, others⟩ := List.forall_mem_cons.mp each
    obtain ⟨results, further⟩ := ih others
    exact ⟨result :: results, .cons here further⟩

theorem forall₂_imp_of_mem {first second : α → β → Prop}
    (implies : ∀ item ∈ items, ∀ result, first item result → second item result)
    (matched : List.Forall₂ first items results) : List.Forall₂ second items results :=
  ((List.forall₂_and_left _ _).mpr ⟨implies, matched⟩).imp fun _ result both => both.1 result both.2

theorem forall₂_comp {γ : Type} {first : α → β → Prop} {second : β → γ → Prop} {results : List γ} :
    List.Forall₂ (fun item result => ∃ middle, first item middle ∧ second middle result) items
        results ↔
      ∃ middles, List.Forall₂ first items middles ∧ List.Forall₂ second middles results := by
  constructor
  · intro matched
    induction matched with
    | nil => exact ⟨[], .nil, .nil⟩
    | cons here _ ih =>
      obtain ⟨middle, toMiddle, fromMiddle⟩ := here
      obtain ⟨middles, toMiddles, fromMiddles⟩ := ih
      exact ⟨middle :: middles, .cons toMiddle toMiddles, .cons fromMiddle fromMiddles⟩
  · rintro ⟨middles, toMiddles, fromMiddles⟩
    induction toMiddles generalizing results with
    | nil =>
      cases fromMiddles
      exact .nil
    | cons here _ ih =>
      cases fromMiddles with
      | cons there others => exact .cons ⟨_, here, there⟩ (ih others)

/-- What every step keeps, a whole run keeps. -/
theorem foldlM_keeps {step : β → α → Except ε β} {start result : β} (kept : β → Prop)
    (stepKeeps : ∀ item ∈ items, ∀ before after,
      step before item = .ok after → kept before → kept after)
    (run : items.foldlM step start = .ok result) (holds : kept start) : kept result := by
  induction items generalizing start with
  | nil =>
    rw [List.foldlM_nil, pure_eq_ok] at run
    rwa [← run]
  | cons item rest ih =>
    rw [List.foldlM_cons, bind_eq_ok] at run
    obtain ⟨next, stepped, more⟩ := run
    apply ih
    · intro other member
      exact stepKeeps other (List.mem_cons_of_mem item member)
    · exact more
    · exact stepKeeps item List.mem_cons_self start next stepped holds

end

end TypedMarkup
