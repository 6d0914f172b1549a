/-
# Rendering

The text of a template tree for given variables and constants. Inside loops,
the current rows stand on a stack from the innermost outwards.

* `Row.flag?`: the position of a row, which conditions and tags can ask for
* `Node.render`: the text of a tree
-/
import PageServer.Template.Node
import PageServer.Template.Variables
import PageServer.Fault

namespace PageServer

/-- Constants by name. -/
abbrev Constants := Table Text

/-- The current row of a loop. -/
structure Row where
  /-- The name of the loop. -/
  name : Text
  /-- The values of the row. -/
  fields : Fields
  /-- The number of the row, counted from zero. -/
  index : Nat
  /-- The number of rows of the loop. -/
  count : Nat

namespace Row

/-- The flags of a row: whether it is the first, the last, the first, third, fifth …, or the
second, fourth, … of its loop. -/
def flag? (row : Row) (name : Text) : Option Bool :=
  if name = "IS_FIRST_ROW".toList then some (row.index == 0)
  else if name = "IS_LAST_ROW".toList then some (row.index + 1 == row.count)
  else if name = "IS_ODD_ROW".toList then some (row.index % 2 == 0)
  else if name = "IS_EVEN_ROW".toList then some (row.index % 2 == 1)
  else none

/-- The value at a path in a row; a flag hides a field of its name. -/
def get? (row : Row) (path : List Text) : Option Value :=
  match path with
  | [name] =>
    match row.flag? name with
    | some b => some (.bool b)
    | none => Fields.at? path row.fields
  | _ => Fields.at? path row.fields

end Row

/-- What a template is rendered with. -/
structure Page where
  /-- The variables. -/
  vars : Fields
  /-- The constants. -/
  constants : Constants
  /-- The current rows from the innermost loop outwards. -/
  rows : List Row := []

namespace Page

/-- The current row of a loop, of the innermost one of that name. -/
def row? (page : Page) (name : Text) : Option Row :=
  page.rows.find? fun row => decide (row.name = name)

/-- The value of a variable. -/
def value? (page : Page) (v : VarRef) : Option Value :=
  match v.scope with
  | none => Fields.at? v.path page.vars
  | some scope => (page.row? scope).bind fun row => row.get? v.path

/-- The names of a condition in a page. -/
def scope (page : Page) : Scope where
  variableValue v := (page.value? v).getD .null
  constantValue name := (Table.get? name page.constants).map .str

/-- A failure at a place, which shows the line escaped. -/
def failure (span : Span) (message : Text) : Fault :=
  .templateFailed span.file span.line (Html.escape span.snippet) message

/-- The rows of a loop without a parent, or with one in whose current row they are looked up. -/
def rowsOf (page : Page) (parent : Option Text) (key : Text) (span : Span) :
    Except Fault (List Fields) :=
  match parent with
  | none => .ok (Variables.rowsOf (Table.get? key page.vars))
  | some name =>
    match page.row? name with
    | some row => .ok (Variables.rowsOf (Table.get? key row.fields))
    | none => .error (failure span ("loop \x27" ++ name ++ "\x27 is not active"))

/-- The texts of a body for the rows of a loop from number `index` on. -/
def forRows (page : Page) (name : Text) (count : Nat) (body : Page → Except Fault Text) :
    Nat → List Fields → Except Fault Text
  | _, [] => .ok []
  | index, fields :: rest =>
    match body { page with rows := ⟨name, fields, index, count⟩ :: page.rows } with
    | .error fault => .error fault
    | .ok here =>
      match forRows page name count body (index + 1) rest with
      | .error fault => .error fault
      | .ok after => .ok (here ++ after)

end Page

namespace Node

mutual
/-- The text of one instruction. -/
def renderOne (page : Page) : Node → Except Fault Text
  | text t => .ok t
  | print v => .ok (((page.value? v).map Value.text).getD [])
  | constant name => .ok ((Table.get? name page.constants).getD [])
  | choice branches none => renderChoice page (fun _ => .ok []) branches
  | choice branches (some nodes) => renderChoice page (fun page => renderAll page nodes) branches
  | loop name parent key body span =>
    match page.rowsOf parent key span with
    | .error fault => .error fault
    | .ok rows => page.forRows name rows.length (fun page => renderAll page body) 0 rows

/-- The text of the first branch whose condition holds, or of what stands for none of them. -/
def renderChoice (page : Page) (otherwise : Page → Except Fault Text) :
    List Branch → Except Fault Text
  | [] => otherwise page
  | .mk condition body span :: rest =>
    match condition.evaluate page.scope with
    | .error message => .error (Page.failure span message)
    | .ok v => if v.truthy then renderAll page body else renderChoice page otherwise rest

/-- The text of instructions in order. -/
def renderAll (page : Page) : List Node → Except Fault Text
  | [] => .ok []
  | node :: rest =>
    match renderOne page node with
    | .error fault => .error fault
    | .ok here =>
      match renderAll page rest with
      | .error fault => .error fault
      | .ok after => .ok (here ++ after)
end

/-- The text of a tree for the variables and constants of a page. -/
def render (nodes : List Node) (vars : Fields) (constants : Constants) :
    Except Fault Text :=
  renderAll { vars, constants } nodes

end Node
end PageServer
