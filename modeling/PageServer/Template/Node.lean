/-
# Template trees

The instructions of a template, with the tags that are written for them.

* `Node`: an instruction; branches and loops hold the instructions inside them
-/
import PageServer.Condition.Expr

namespace PageServer

mutual
/-- An instruction of a template. -/
inductive Node where
  /-- Text that is written as it is. -/
  | text (t : Text)
  /-- The value of a variable, nothing if there is none. -/
  | print (v : VarRef)
  /-- The value of a constant, nothing if there is none. -/
  | constant (name : Text)
  /-- The first branch whose condition holds, or else `otherwise`. -/
  | choice (branches : List Branch) (otherwise : Option (List Node))
  /-- The body for each row of a loop. The rows are those of `key`, in the current row of the
  loop `parent` or, without a parent, among the variables of the page. -/
  | loop (name : Text) (parent : Option Text) (key : Text) (body : List Node) (span : Span)

/-- A branch: a condition, what it guards, and the place of its tag. -/
inductive Branch where
  /-- The branch of a tag. -/
  | mk (condition : Expr) (body : List Node) (span : Span)
end

instance : Inhabited Node := ⟨.text []⟩

/-- The condition of a branch. -/
def Branch.condition : Branch → Expr
  | mk condition _ _ => condition

/-- What a branch guards. -/
def Branch.body : Branch → List Node
  | mk _ body _ => body

/-- The place of a branch. -/
def Branch.span : Branch → Span
  | mk _ _ span => span

end PageServer
