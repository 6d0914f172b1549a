/-
# Conditions that fail

Of all that a condition can do only one thing fails: ordering a map or a loop.
Names that stand for nothing are null, and all other operators take all values.

* `Expr.orders`: the comparisons of order in a condition
* `Value.compare_eq_error_iff`: which values have no order
* `Expr.exists_order_of_evaluate`: a condition that fails orders a map or a loop
-/
import Mathlib
import PageServer.Condition.Expr

namespace PageServer

/-! ## Comparisons -/

/-- Whether an operator asks for the order of its operands. -/
def Operator.isOrder : Operator → Bool
  | gt | lt | ge | le => true
  | eq | ne | and | or => false

/-- What is said of two values that have no order. -/
def Value.noOrder (left right : Value) : Text :=
  "cannot compare " ++ left.kindName ++ " with " ++ right.kindName

/-- Maps and loops have no order, and only they have none. -/
theorem Value.compare_eq_error_iff {left right : Value} {message : Text} :
    left.compare right = .error message ↔
      (left.isContainer = true ∨ right.isContainer = true) ∧ message = noOrder left right := by
  unfold Value.compare
  rw [← Bool.or_eq_true]
  split
  · rename_i hcontainer
    rw [hcontainer, Except.error.injEq]
    exact ⟨fun h => ⟨rfl, h.symm⟩, fun h => h.2.symm⟩
  · rename_i hcontainer
    refine ⟨fun h => ?_, fun h => absurd h.1 hcontainer⟩
    split at h
    · contradiction
    · contradiction
    · split at h <;> contradiction

namespace Expr

/-- The comparisons of order in a condition, each with its operands. -/
def orders : Expr → List (Operator × Expr × Expr)
  | lit _ | var _ | constant _ => []
  | not e => e.orders
  | binary op left right =>
    (if op.isOrder then [(op, left, right)] else []) ++ (left.orders ++ right.orders)

/-- A comparison of order at which a condition fails with a message: its operands have values, and
one of them is a map or a loop. -/
def FailsAt (scope : Scope) (order : Operator × Expr × Expr) (message : Text) : Prop :=
  ∃ left right : Value, order.2.1.evaluate scope = .ok left ∧
    order.2.2.evaluate scope = .ok right ∧
    (left.isContainer = true ∨ right.isContainer = true) ∧ message = left.noOrder right

/-- Only an order fails for operands that have values. -/
theorem of_combine {op : Operator} {left right : Value} {message : Text}
    (h : combine op left right = .error message) :
    op.isOrder = true ∧ left.compare right = .error message := by
  have hcompare : ∀ order : Operator, (left.compare right).map (fun outcome =>
      Value.bool (order.holds outcome)) = .error message →
        left.compare right = .error message := by
    intro order horder
    cases hvalue : left.compare right with
    | ok outcome => rw [hvalue] at horder; contradiction
    | error other =>
        rw [hvalue] at horder
        exact congrArg Except.error (Except.error.inj horder)
  cases op <;> first | contradiction | exact ⟨rfl, hcompare _ h⟩

/-- **A condition that fails orders a map or a loop somewhere.** -/
theorem exists_order_of_evaluate {scope : Scope} {e : Expr} {message : Text}
    (h : e.evaluate scope = .error message) :
    ∃ order ∈ e.orders, FailsAt scope order message := by
  induction e generalizing message with
  | lit v => contradiction
  | var v => contradiction
  | constant name => contradiction
  | not e ih =>
      rw [evaluate] at h
      split at h
      · contradiction
      · rename_i heq
        rw [← Except.error.inj h]
        exact ih heq
  | binary op left right ihleft ihright =>
      rw [evaluate] at h
      split at h
      · -- the left side fails
        rename_i heq
        rw [← Except.error.inj h]
        obtain ⟨order, horder, hfails⟩ := ihleft heq
        exact ⟨order, List.mem_append_right _ (List.mem_append_left _ horder), hfails⟩
      rename_i v hleft
      split at h
      · contradiction
      split at h
      · -- the right side fails
        rename_i heq
        rw [← Except.error.inj h]
        obtain ⟨order, horder, hfails⟩ := ihright heq
        exact ⟨order, List.mem_append_right _ (List.mem_append_right _ horder), hfails⟩
      · -- both sides have values
        rename_i w hright
        obtain ⟨horder, hcompare⟩ := of_combine h
        obtain ⟨hcontainer, hmessage⟩ := Value.compare_eq_error_iff.mp hcompare
        refine ⟨(op, left, right), ?_, ⟨v, w, hleft, hright, hcontainer, hmessage⟩⟩
        rw [orders, if_pos horder]
        exact List.mem_append_left _ (List.mem_singleton.mpr rfl)

/-- A condition without such a comparison always has a value. -/
theorem exists_evaluate_eq_ok {e : Expr} (h : e.orders = []) (scope : Scope) :
    ∃ v, e.evaluate scope = .ok v := by
  cases hvalue : e.evaluate scope with
  | ok v => exact ⟨v, rfl⟩
  | error message =>
      obtain ⟨order, horder, -⟩ := exists_order_of_evaluate hvalue
      rw [h] at horder
      contradiction

end Expr
end PageServer
