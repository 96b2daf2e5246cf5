import Mathlib

/-!
# Actions step by step

An action is followed by looking at its first step: what it answered, or how it
failed, and the state that it left. A question that only answers or fails is
followed in the same way.
-/

namespace MessageTables

/-! ## Answers without a state -/

theorem bind_eq_ok_iff {ε α β : Type} {first : Except ε α} {second : α → Except ε β}
    {result : β} :
    (first >>= second) = .ok result ↔ ∃ value, first = .ok value ∧ second value = .ok result := by
  cases first with
  | error error => simp [bind, Except.bind]
  | ok value => simp [bind, Except.bind]

theorem bind_eq_error_iff {ε α β : Type} {first : Except ε α} {second : α → Except ε β}
    {error : ε} :
    (first >>= second) = .error error ↔
      first = .error error ∨ ∃ value, first = .ok value ∧ second value = .error error := by
  cases first with
  | error other => simp [bind, Except.bind]
  | ok value => simp [bind, Except.bind]

/-- What neither of two steps fails with, they do not fail with together. -/
theorem bind_ne_error {ε α β : Type} {first : Except ε α} {second : α → Except ε β} {error : ε}
    (begins : first ≠ .error error) (goesOn : ∀ value, second value ≠ .error error) :
    (first >>= second) ≠ .error error := by
  intro failed
  rcases bind_eq_error_iff.mp failed with first | ⟨value, _, second⟩
  · exact begins first
  · exact goesOn value second

theorem mapError_eq_ok_iff {ε δ α : Type} {change : ε → δ} {result : Except ε α} {value : α} :
    result.mapError change = .ok value ↔ result = .ok value := by
  cases result with
  | error error => simp [Except.mapError]
  | ok other => simp [Except.mapError]

theorem toOption_eq_some_iff {ε α : Type} {result : Except ε α} {value : α} :
    result.toOption = some value ↔ result = .ok value := by
  cases result with
  | error error => simp [Except.toOption]
  | ok other => simp [Except.toOption]

/-! ## Runs -/

variable {ε ε' σ α β : Type} {action : EStateM ε σ α} {state after : σ} {answer : α} {error : ε}

theorem bind_of_ok (done : action state = .ok answer after) (next : α → EStateM ε σ β) :
    (action >>= next) state = next answer after := by
  change EStateM.bind action next state = _
  simp only [EStateM.bind, done]

theorem bind_of_error (failed : action state = .error error after) (next : α → EStateM ε σ β) :
    (action >>= next) state = .error error after := by
  change EStateM.bind action next state = _
  simp only [EStateM.bind, failed]

theorem bind_eq_ok {next : α → EStateM ε σ β} {result : β}
    (done : (action >>= next) state = .ok result after) :
    ∃ answer middle, action state = .ok answer middle ∧ next answer middle = .ok result after := by
  cases first : action state with
  | error error middle =>
      rw [bind_of_error first] at done
      cases done
  | ok answer middle =>
      rw [bind_of_ok first] at done
      exact ⟨answer, middle, rfl, done⟩

theorem tryCatch_of_ok (done : action state = .ok answer after)
    (handle : ε → EStateM ε σ α) :
    (tryCatch action handle : EStateM ε σ α) state = .ok answer after := by
  change EStateM.tryCatch action handle state = _
  simp only [EStateM.tryCatch, done]

theorem tryCatch_of_error (failed : action state = .error error after)
    (handle : ε → EStateM ε σ α) :
    (tryCatch action handle : EStateM ε σ α) state = handle error after := by
  change EStateM.tryCatch action handle state = _
  simp only [EStateM.tryCatch, failed]
  rfl

theorem tryCatch_eq_ok {handle : ε → EStateM ε σ α}
    (ended : (tryCatch action handle : EStateM ε σ α) state = .ok answer after) :
    action state = .ok answer after ∨
      ∃ error middle, action state = .error error middle ∧
        handle error middle = .ok answer after := by
  cases run : action state with
  | ok other middle =>
      rw [tryCatch_of_ok run] at ended
      exact Or.inl ended
  | error error middle =>
      rw [tryCatch_of_error run] at ended
      exact Or.inr ⟨error, middle, rfl, ended⟩

theorem adaptExcept_of_ok (done : action state = .ok answer after) (adapt : ε → ε') :
    action.adaptExcept adapt state = .ok answer after := by
  simp only [EStateM.adaptExcept, done]

theorem adaptExcept_of_error (failed : action state = .error error after) (adapt : ε → ε') :
    action.adaptExcept adapt state = .error (adapt error) after := by
  simp only [EStateM.adaptExcept, failed]

/-- Whether a run is done and leaves what satisfies a condition. -/
def isDoneWith (condition : α → σ → Bool) : EStateM.Result ε σ α → Bool
  | .ok answer after => condition answer after
  | .error _ _ => false

theorem exists_of_isDoneWith {condition : α → σ → Bool} {run : EStateM.Result ε σ α}
    (holds : isDoneWith condition run = true) :
    ∃ answer after, run = .ok answer after ∧ condition answer after = true := by
  cases run with
  | ok answer after => exact ⟨answer, after, rfl, holds⟩
  | error error after => cases holds

/-- Whether a run has failed and leaves what satisfies a condition. -/
def isStoppedWith (condition : ε → σ → Bool) : EStateM.Result ε σ α → Bool
  | .ok _ _ => false
  | .error error after => condition error after

theorem exists_of_isStoppedWith {condition : ε → σ → Bool} {run : EStateM.Result ε σ α}
    (holds : isStoppedWith condition run = true) :
    ∃ error after, run = .error error after ∧ condition error after = true := by
  cases run with
  | ok answer after => cases holds
  | error error after => exact ⟨error, after, rfl, holds⟩

end MessageTables
