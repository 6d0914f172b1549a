/-
# Condition expressions

The trees of conditions and their values.

* `Operator.level`: how tightly an operator binds
* `Expr.evaluate`: the value of an expression, `and` and `or` leaving out a side that can not
  change it
-/
import PageServer.Template.Value
import PageServer.Template.Reference

namespace PageServer

/-- An operator between two operands. -/
inductive Operator where
  /-- Both are equal. -/
  | eq
  /-- They are not equal. -/
  | ne
  /-- The left one is greater. -/
  | gt
  /-- The left one is less. -/
  | lt
  /-- The left one is greater or equal. -/
  | ge
  /-- The left one is less or equal. -/
  | le
  /-- Both hold. -/
  | and
  /-- One of them holds. -/
  | or
  deriving DecidableEq, Repr

namespace Operator

/-- How tightly an operator binds: `or` least and the comparisons of order most. -/
def level : Operator → Nat
  | or => 0
  | and => 1
  | eq | ne => 2
  | gt | lt | ge | le => 3

/-- The name of an operator in messages and in saved trees. -/
def name : Operator → Text
  | eq => "Eq"
  | ne => "Ne"
  | gt => "Gt"
  | lt => "Lt"
  | ge => "Ge"
  | le => "Le"
  | and => "And"
  | or => "Or"

/-- The symbol of an operator. -/
def symbol : Operator → Text
  | eq => "=="
  | ne => "!="
  | gt => ">"
  | lt => "<"
  | ge => ">="
  | le => "<="
  | and => "&&"
  | or => "||"

/-- The word that may stand for an operator. -/
def word : Operator → Text
  | eq => "eq"
  | ne => "neq"
  | gt => "gt"
  | lt => "lt"
  | ge => "gte"
  | le => "lte"
  | and => "and"
  | or => "or"

/-- All operators. -/
def all : List Operator := [eq, ne, gt, lt, ge, le, and, or]

/-- Every operator is in the list of all. -/
theorem mem_all (o : Operator) : o ∈ all := by cases o <;> simp [all]

/-- Whether a comparison of order holds for an outcome. -/
def holds : Operator → Ordering → Bool
  | gt, o => o.isGT
  | lt, o => o.isLT
  | ge, o => o.isGE
  | le, o => o.isLE
  | _, _ => false

end Operator

/-- A condition. -/
inductive Expr where
  /-- A value. -/
  | lit (v : Value)
  /-- The value of a variable. -/
  | var (v : VarRef)
  /-- The value of a constant. -/
  | constant (name : Text)
  /-- A condition that must not hold. -/
  | not (e : Expr)
  /-- An operator with its two operands. -/
  | binary (op : Operator) (left right : Expr)
  deriving Inhabited, Repr

/-- What the names in a condition stand for. -/
structure Scope where
  /-- The value of a variable, null if there is none. -/
  variableValue : VarRef → Value
  /-- The value of a constant, if there is one. -/
  constantValue : Text → Option Value

namespace Expr

/-- The value of an operator at two operands that both have been computed. -/
def combine (op : Operator) (left right : Value) : Except Text Value :=
  match op with
  | .and => .ok (.bool (left.truthy && right.truthy))
  | .or => .ok (.bool (left.truthy || right.truthy))
  | .eq => .ok (.bool (left.looseEq right))
  | .ne => .ok (.bool (!left.looseEq right))
  | order => (left.compare right).map fun outcome => .bool (order.holds outcome)

/-- Whether the left operand alone decides. -/
def decides (op : Operator) (left : Value) : Bool :=
  match op with
  | .and => !left.truthy
  | .or => left.truthy
  | _ => false

/-- The value of an expression; the right side is left out where the left one decides. -/
def evaluate (scope : Scope) : Expr → Except Text Value
  | lit v => .ok v
  | var v => .ok (scope.variableValue v)
  | constant name => .ok ((scope.constantValue name).getD .null)
  | not e =>
    match evaluate scope e with
    | .ok v => .ok (.bool (!v.truthy))
    | .error message => .error message
  | binary op left right =>
    match evaluate scope left with
    | .error message => .error message
    | .ok v =>
      if decides op v then .ok (.bool v.truthy)
      else
        match evaluate scope right with
        | .error message => .error message
        | .ok w => combine op v w

end Expr
end PageServer
