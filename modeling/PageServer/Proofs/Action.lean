/-
# Running actions

Equations for the state and the result that an action leaves behind, step by
step.

* `Action.run_bind_of_ok`, `Action.run_bind_of_error`: two steps in a row
* `Action.after_bind`: the state after two steps is that of the first or comes from the second
-/
import Mathlib
import PageServer.Action

namespace PageServer.Action

variable {ε σ α β : Type}

/-- Reading the state gives it and leaves it. -/
@[simp] theorem run_get (state : σ) :
    run (get : ExceptT ε (StateM σ) σ) state = (.ok state, state) := rfl

/-- Changing the state. -/
@[simp] theorem run_modify (change : σ → σ) (state : σ) :
    run (modify change : ExceptT ε (StateM σ) PUnit) state = (.ok (), change state) := rfl

/-- A failure leaves the state. -/
@[simp] theorem run_throw (e : ε) (state : σ) :
    run (throw e : ExceptT ε (StateM σ) α) state = (.error e, state) := rfl

/-- A result that does not touch the state. -/
@[simp] theorem run_ofExcept (result : Except ε α) (state : σ) :
    run (ofExcept result : ExceptT ε (StateM σ) α) state = (result, state) := rfl

/-- The second step follows a first one that gave a result. -/
theorem run_bind_of_ok {action : ExceptT ε (StateM σ) α} {next : α → ExceptT ε (StateM σ) β}
    {state after : σ} {a : α} (h : run action state = (.ok a, after)) :
    run (action >>= next) state = run (next a) after := by
  rw [run_bind, h]

/-- No step follows one that failed. -/
theorem run_bind_of_error {action : ExceptT ε (StateM σ) α} {next : α → ExceptT ε (StateM σ) β}
    {state after : σ} {e : ε} (h : run action state = (.error e, after)) :
    run (action >>= next) state = (.error e, after) := by
  rw [run_bind, h]

/-- Two steps end as the first one did, if that failed, or as the second one does after it. -/
theorem after_bind (action : ExceptT ε (StateM σ) α) (next : α → ExceptT ε (StateM σ) β)
    (state : σ) :
    ((∃ e, (run action state).1 = .error e ∧
        run (action >>= next) state = (.error e, (run action state).2)) ∨
      ∃ a, (run action state).1 = .ok a ∧
        run (action >>= next) state = run (next a) (run action state).2) := by
  rw [run_bind]
  rcases h : run action state with ⟨e | a, after⟩
  · exact Or.inl ⟨e, rfl, rfl⟩
  · exact Or.inr ⟨a, rfl, rfl⟩

end PageServer.Action
