/-
# From tokens to trees

Tokens are read from left to right with a stack of what is still open: a
parenthesis, a negation, or a left operand with its operator. A tighter
operator closes first, and operators of one level group to the left.

* `Condition.operand`, `Condition.behindOperand`: the two states of the reader
* `Condition.parse`: the tree of a condition
-/
import PageServer.Condition.Token

namespace PageServer.Condition

/-- What is open to the left of an operand. -/
inductive Pending where
  /-- A parenthesis. -/
  | paren
  /-- A negation. -/
  | negation
  /-- A left operand with its operator. -/
  | left (e : Expr) (op : Operator)
  deriving Inhabited

/-- An operand with the negations right before it. -/
def negate : List Pending → Expr → List Pending × Expr
  | .negation :: stack, e => negate stack (.not e)
  | stack, e => (stack, e)

/-- An operand joined with the left operands before it whose operators bind at least as tightly
as `level`. -/
def reduce (level : Nat) : List Pending → Expr → List Pending × Expr
  | .left l op :: stack, r =>
    if level ≤ op.level then reduce level stack (.binary op l r) else (.left l op :: stack, r)
  | stack, r => (stack, r)

/-- Whether a parenthesis is open. -/
def anyParen (stack : List Pending) : Bool :=
  stack.any fun p => match p with | .paren => true | _ => false

mutual
/-- Reads tokens where an operand has to come. -/
def operand (stack : List Pending) : List Token → Except Problem Expr
  | [] => .error .unexpectedEnd
  | .lit v :: tokens =>
    let (stack, e) := negate stack (.lit v)
    behindOperand stack e tokens
  | .ref (.var v) :: tokens =>
    let (stack, e) := negate stack (.var v)
    behindOperand stack e tokens
  | .ref (.constant name) :: tokens =>
    let (stack, e) := negate stack (.constant name)
    behindOperand stack e tokens
  | .negation :: tokens => operand (.negation :: stack) tokens
  | .openParen :: tokens => operand (.paren :: stack) tokens
  | .closeParen :: _ => .error (.unexpected .closeParen)
  | .op o :: _ => .error (.unexpected (.op o))

/-- Reads tokens behind the operand `e`, whose negations are applied. -/
def behindOperand (stack : List Pending) (e : Expr) : List Token → Except Problem Expr
  | [] =>
    match reduce 0 stack e with
    | ([], e) => .ok e
    | _ => .error .unclosed
  | .op o :: tokens =>
    let (stack, l) := reduce o.level stack e
    operand (.left l o :: stack) tokens
  | .closeParen :: tokens =>
    match reduce 0 stack e with
    | (.paren :: stack, e) =>
      let (stack, e) := negate stack e
      behindOperand stack e tokens
    | _ => .error (.trailing .closeParen)
  | t :: _ => .error (if anyParen stack then .unclosed else .trailing t)
end

/-- The tree of a condition. -/
def parse (source : Text) : Except Problem Expr :=
  match Token.scan source with
  | .error problem => .error problem
  | .ok [] => .error .empty
  | .ok tokens => operand [] tokens

end PageServer.Condition
