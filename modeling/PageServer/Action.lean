/-
# Actions

Steps that may fail and that work on a state, which they leave behind also when
they fail.

* `Action.run`, `Action.mk`: an action as a function on states
* `Action.onPart`: an action on a part of a greater state
-/
import PageServer.Fault

namespace PageServer

/-- A step on a state of type `σ` that gives an `α` or fails. The state after it is known either
way. -/
abbrev Action (σ α : Type) := ExceptT Fault (StateM σ) α

namespace Action

variable {ε σ τ α : Type}

/-- Runs a step on a state. -/
def run (action : ExceptT ε (StateM σ) α) (state : σ) : Except ε α × σ :=
  (ExceptT.run action).run state

/-- A step from what it does to a state. -/
def mk (step : σ → Except ε α × σ) : ExceptT ε (StateM σ) α :=
  ExceptT.mk (fun state => step state)

/-- A result that does not touch the state. -/
def ofExcept (result : Except ε α) : ExceptT ε (StateM σ) α :=
  mk fun state => (result, state)

/-- A step on a part of the state. -/
def onPart (get : σ → τ) (set : τ → σ → σ) (action : ExceptT ε (StateM τ) α) :
    ExceptT ε (StateM σ) α :=
  mk fun state =>
    let (result, part) := run action (get state)
    (result, set part state)

/-- Running a step that was made from a function runs the function. -/
@[simp] theorem run_mk (step : σ → Except ε α × σ) (state : σ) :
    run (mk step) state = step state := rfl

/-- A step that only gives a result leaves the state. -/
@[simp] theorem run_pure (a : α) (state : σ) :
    run (pure a : ExceptT ε (StateM σ) α) state = (.ok a, state) := rfl

/-- Two steps in a row: the second runs on the state the first leaves, if that did not fail. -/
theorem run_bind {β : Type} (action : ExceptT ε (StateM σ) α)
    (next : α → ExceptT ε (StateM σ) β) (state : σ) :
    run (action >>= next) state =
      match run action state with
      | (.ok a, after) => run (next a) after
      | (.error e, after) => (.error e, after) := by
  show (ExceptT.bindCont next) _ _ = _
  unfold run ExceptT.run StateT.run
  rcases action state with ⟨a | a, s⟩ <;> rfl

end Action
end PageServer
