/-
# Variables

The variables of a page. A colon in a name leads into a map, and a dot in the
name of a loop leads into the last row of the loop before it.

* `Variables.set`: sets a variable; a map sets each of the variables in it
* `Variables.addRow?`: adds a row at the end of a loop
* `Variables.get?`, `Variables.loopLength`: read them
-/
import PageServer.Template.Value

namespace PageServer

/-- The variables of a page. -/
structure Variables where
  /-- The variables. -/
  fields : Fields := []
  /-- Whether a variable that exists may be set again. -/
  overwrite : Bool := true
  deriving Inhabited, Repr

namespace Variables

/-! ## Setting -/

mutual
/-- The variables that setting `name` to a value sets: for a map those of its entries, named
behind a colon, and otherwise `name` itself. -/
def leaves (name : Text) : Value → List (Text × Value)
  | .map fields => leavesOfFields name fields
  | value => [(name, value)]

/-- The variables of the entries of a map that has the name `name`. -/
def leavesOfFields (name : Text) : List (Text × Value) → List (Text × Value)
  | [] => []
  | (key, value) :: rest =>
    leaves (name ++ ':' :: key) value ++ leavesOfFields name rest
end

/-- The map on the way of a path: the one that is there, an empty one where nothing is, or in
place of another value if that may be overwritten. -/
def inner? (overwrite : Bool) : Option Value → Option Fields
  | some (.map fields) => some fields
  | none => some []
  | some _ => if overwrite then some [] else none

/-- Sets the value at the end of a path, unless a value that may not be overwritten is in the
way. -/
def assign (overwrite : Bool) (value : Value) : List Text → Fields → Fields
  | [], fields => fields
  | [name], fields =>
    if overwrite || (Table.get? name fields).isNone then Table.insert name value fields else fields
  | name :: path, fields =>
    match inner? overwrite (Table.get? name fields) with
    | some inner => Table.insert name (.map (assign overwrite value path inner)) fields
    | none => fields

/-- Sets one variable, whose name leads through maps at its colons. -/
def setOne (vars : Variables) (name : Text) (value : Value) : Variables :=
  { vars with fields := assign vars.overwrite value (Text.splitOn ':' name) vars.fields }

/-- Sets a variable; a map sets each of the variables in it. -/
def set (vars : Variables) (name : Text) (value : Value) : Variables :=
  (leaves name value).foldl (fun vars leaf => vars.setOne leaf.1 leaf.2) vars

/-- Sets several variables in order. -/
def setMany (vars : Variables) (pairs : List (Text × Value)) : Variables :=
  pairs.foldl (fun vars pair => vars.set pair.1 pair.2) vars

/-! ## Loops -/

/-- The rows of a value that is a loop. -/
def rowsOf : Option Value → List Fields
  | some (.rows rows) => rows
  | _ => []

/-- Adds a row to the loop at the end of a path, each loop before it lending its last row. There
is no result if one of those has no row, or if the last name is empty. -/
def appendRow? (row : Fields) : List Text → Fields → Option Fields
  | [], _ => none
  | [name], fields =>
    if name.isEmpty then none
    else some (Table.insert name (.rows (rowsOf (Table.get? name fields) ++ [row])) fields)
  | name :: path, fields =>
    let rows := rowsOf (Table.get? name fields)
    match rows.getLast? with
    | none => none
    | some last =>
      (appendRow? row path last).map fun last' =>
        Table.insert name (.rows (rows.dropLast ++ [last'])) fields

/-- The variables with a row added to a loop, if its path leads to one. -/
def addRow? (vars : Variables) (path : Text) (row : Fields) : Option Variables :=
  (appendRow? row (Text.splitOn '.' path) vars.fields).map fun fields => { vars with fields }

/-- The number of rows of the loop at the end of a path. -/
def lengthAt : List Text → Fields → Nat
  | [], _ => 0
  | [name], fields => (rowsOf (Table.get? name fields)).length
  | name :: path, fields =>
    match (rowsOf (Table.get? name fields)).getLast? with
    | none => 0
    | some last => lengthAt path last

/-- The number of rows of a loop, zero if there is none. -/
def loopLength (vars : Variables) (path : Text) : Nat :=
  lengthAt (Text.splitOn '.' path) vars.fields

/-! ## Reading -/

/-- The value of a variable. -/
def get? (vars : Variables) (name : Text) : Option Value :=
  Fields.at? (Text.splitOn ':' name) vars.fields

end Variables
end PageServer
