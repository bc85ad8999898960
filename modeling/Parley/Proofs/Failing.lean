import Parley.Failure

namespace Parley

@[simp]
theorem ok_bind (value : α) (next : α → Except ε β) : (Except.ok value >>= next) = next value := rfl

@[simp]
theorem error_bind (failure : ε) (next : α → Except ε β) :
    (Except.error failure >>= next) = .error failure := rfl

@[simp]
theorem pure_eq_ok (value : α) : (pure value : Except ε α) = .ok value := rfl

@[simp]
theorem throw_eq_error (failure : ε) : (throw failure : Except ε α) = .error failure := rfl

theorem bind_ok {first : Except ε α} {next : α → Except ε β} {last : β}
    (result : (first >>= next) = .ok last) : ∃ value, first = .ok value ∧ next value = .ok last := by
  cases first with
  | error failure => cases result
  | ok value => exact ⟨value, rfl, result⟩

/-- What each step keeps, a fold that goes through keeps. -/
theorem foldlM_keeps {holds : σ → Prop} {step : σ → α → Except ε σ}
    (keeps : ∀ {state item next}, holds state → step state item = .ok next → holds next)
    {start last : σ} {items : List α} (here : holds start) (reached : items.foldlM step start = .ok last) :
    holds last := by
  induction items generalizing start with
  | nil =>
    cases reached
    exact here
  | cons first rest ih =>
    rw [List.foldlM_cons] at reached
    obtain ⟨middle, taken, later⟩ := bind_ok reached
    exact ih (keeps here taken) later

/-- A fold that fails does so at one item, and goes well up to there. -/
theorem exists_of_foldlM_error {step : σ → α → Except ε σ} {start : σ} {items : List α} {failure : ε}
    (failed : items.foldlM step start = .error failure) :
    ∃ before item after state, items = before ++ item :: after ∧
      before.foldlM step start = .ok state ∧ step state item = .error failure := by
  induction items generalizing start with
  | nil => cases failed
  | cons first rest ih =>
    rw [List.foldlM_cons] at failed
    cases went : step start first with
    | error early =>
      rw [went] at failed
      cases failed
      exact ⟨[], first, rest, start, rfl, rfl, went⟩
    | ok next =>
      rw [went] at failed
      obtain ⟨before, item, after, state, rfl, reached, stopped⟩ := ih failed
      refine ⟨first :: before, item, after, state, rfl, ?_, stopped⟩
      rw [List.foldlM_cons, went]
      exact reached

end Parley
