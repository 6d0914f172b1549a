/-
# Saved trees

Template trees as JSON. A choice among several kinds is an object with the name
of the kind as its only member, or the name alone if nothing comes with it; a
record is an object with its fields in a fixed order.

* `SavedTree.write`: the text of a tree
* `SavedTree.read?`: the tree of a text; records may also be arrays, other members are passed
  over, and nesting is bounded
-/
import PageServer.Json.Reader
import PageServer.Template.Node

namespace PageServer.SavedTree

/-! ## Writing -/

/-- A kind with what comes with it. -/
def kind (name : Text) (content : Json) : Json := .fields [(name, content)]

/-- A text, or null. -/
def ofOption (t : Option Text) : Json :=
  match t with
  | some t => .text t
  | none => .null

mutual
/-- A value as JSON. -/
def ofValue : Value → Json
  | .null => .text "Null"
  | .bool b => kind "Bool" (.bool b)
  | .int n => kind "Int" (.number (Text.ofInt n))
  | .float x => kind "Float" (if x.isFinite then .number (Decimal.data x) else .null)
  | .str t => kind "Str" (.text t)
  | .map fields => kind "Map" (.object (ofFields fields))
  | .rows rows => kind "List" (.array (ofRows rows))

/-- The members of an object with the given values. -/
def ofFields : List (Text × Value) → List (Option Text × Json)
  | [] => []
  | (name, value) :: rest => (some name, ofValue value) :: ofFields rest

/-- The rows of a loop. -/
def ofRows : List (List (Text × Value)) → List Json
  | [] => []
  | row :: rest => .object (ofFields row) :: ofRows rest
end

/-- A variable as JSON. -/
def ofVar (v : VarRef) : Json :=
  .fields [("scope", ofOption v.scope), ("path", .array (v.path.map .text))]

/-- A place as JSON. -/
def ofSpan (s : Span) : Json :=
  .fields [("file", .text s.file), ("line", .number (Text.ofNat s.line)),
    ("snippet", .text s.snippet)]

/-- A condition as JSON. -/
def ofExpr : Expr → Json
  | .lit v => kind "Literal" (ofValue v)
  | .var v => kind "Var" (ofVar v)
  | .constant name => kind "Constant" (.text name)
  | .not e => kind "Not" (ofExpr e)
  | .binary op left right =>
    kind "Binary"
      (.fields [("op", .text op.name), ("left", ofExpr left), ("right", ofExpr right)])

mutual
/-- An instruction as JSON. -/
def ofNode : Node → Json
  | .text t => kind "Text" (.text t)
  | .print v => kind "Print" (ofVar v)
  | .constant name => kind "Constant" (.text name)
  | .choice branches none =>
    kind "If" (.fields [("branches", .array (ofBranches branches)), ("otherwise", .null)])
  | .choice branches (some nodes) =>
    kind "If"
      (.fields [("branches", .array (ofBranches branches)),
        ("otherwise", .array (ofNodes nodes))])
  | .loop name parent key body span =>
    kind "Loop"
      (.fields [("name", .text name), ("parent", ofOption parent), ("key", .text key),
        ("body", .array (ofNodes body)), ("span", ofSpan span)])

/-- Branches as JSON. -/
def ofBranches : List Branch → List Json
  | [] => []
  | .mk condition body span :: rest =>
    .fields [("condition", ofExpr condition), ("body", .array (ofNodes body)),
      ("span", ofSpan span)] :: ofBranches rest

/-- Instructions as JSON. -/
def ofNodes : List Node → List Json
  | [] => []
  | node :: rest => ofNode node :: ofNodes rest
end

/-- The text of a tree. -/
def write (nodes : List Node) : Text := Json.write (.array (ofNodes nodes))

/-! ## Reading

Each reader takes the number of containers that may still be opened. -/

/-- The only value of a name among members, if there is one; a second one, and a name that is no
text, is refused. -/
def member? (name : Text) : List (Option Text × Json) → Option (Option Json)
  | [] => some none
  | (none, _) :: _ => none
  | (some other, value) :: rest =>
    match member? name rest with
    | none => none
    | some found =>
      if other = name then (if found.isSome then none else some (some value)) else some found

/-- The values of the fields of a record, given by their names and what stands for a missing
one. -/
def fields? (names : List (Text × Option Json)) : Json → Option (List Json)
  | .object members =>
    names.mapM fun field =>
      match member? field.1 members with
      | some (some value) => some value
      | some none => field.2
      | none => none
  | .array items => if items.length = names.length then some items else none
  | _ => none

/-- A text. -/
def text? : Json → Option Text
  | .string t => t
  | _ => none

/-- A text, or null. -/
def optionText? : Json → Option (Option Text)
  | .null => some none
  | json => (text? json).map some

/-- Values by name; of two values of a name the later one counts. -/
def mapWith (value? : Json → Option Value) (members : List (Option Text × Json)) :
    Option Fields :=
  members.foldlM (fun fields entry =>
    match entry.1, value? entry.2 with
    | some name, some value => some (Table.insert name value fields)
    | _, _ => none) []

/-- A value. -/
def value? : Nat → Json → Option Value
  | _, .string (some name) => if name = "Null".toList then some .null else none
  | depth + 1, .object [(some name, content)] =>
    if name = "Null".toList then
      match content with
      | .null => some .null
      | _ => none
    else if name = "Bool".toList then
      match content with
      | .bool b => some (.bool b)
      | _ => none
    else if name = "Int".toList then
      match content with
      | .number written => (Json.intOf? written).map .int
      | _ => none
    else if name = "Float".toList then
      match content with
      | .number written => (Json.floatOf? written).map .float
      | _ => none
    else if name = "Str".toList then (text? content).map .str
    else if name = "Map".toList then
      match depth, content with
      | inside + 1, .object members => (mapWith (value? inside) members).map .map
      | _, _ => none
    else if name = "List".toList then
      match depth, content with
      | inside + 1, .array rows =>
        match inside with
        | 0 => if rows.isEmpty then some (.rows []) else none
        | deeper + 1 =>
          (rows.mapM fun (row : Json) =>
            match row with
            | .object members => mapWith (value? deeper) members
            | _ => none).map .rows
      | _, _ => none
    else none
  | _, _ => none

/-- A list of texts. -/
def texts? : Nat → Json → Option (List Text)
  | _ + 1, .array items => items.mapM text?
  | _, _ => none

/-- A variable. -/
def var? : Nat → Json → Option VarRef
  | depth + 1, json =>
    match fields? [("scope", some .null), ("path", none)] json with
    | some [scope, path] =>
      match optionText? scope, texts? depth path with
      | some scope, some path => some ⟨scope, path⟩
      | _, _ => none
    | _ => none
  | 0, _ => none

/-- A place. -/
def span? : Nat → Json → Option Span
  | _ + 1, json =>
    match fields? [("file", none), ("line", none), ("snippet", none)] json with
    | some [file, .number line, snippet] =>
      match text? file, Json.natOf? line, text? snippet with
      | some file, some line, some snippet => some ⟨file, line, snippet⟩
      | _, _, _ => none
    | _ => none
  | 0, _ => none

/-- An operator. -/
def operator? : Nat → Json → Option Operator
  | _, .string (some name) => Operator.all.find? fun o => decide (o.name = name)
  | _ + 1, .object [(some name, .null)] => Operator.all.find? fun o => decide (o.name = name)
  | _, _ => none

/-- A condition. -/
def expr? : Nat → Json → Option Expr
  | depth + 1, .object [(some name, content)] =>
    if name = "Literal".toList then (value? depth content).map .lit
    else if name = "Var".toList then (var? depth content).map .var
    else if name = "Constant".toList then (text? content).map .constant
    else if name = "Not".toList then (expr? depth content).map .not
    else if name = "Binary".toList then
      match depth with
      | 0 => none
      | inside + 1 =>
        match fields? [("op", none), ("left", none), ("right", none)] content with
        | some [op, left, right] =>
          match operator? inside op, expr? inside left, expr? inside right with
          | some op, some left, some right => some (.binary op left right)
          | _, _, _ => none
        | _ => none
    else none
  | _, _ => none

/-- A list of what `item?` reads. -/
def list? {α : Type} (item? : Json → Option α) : Json → Option (List α)
  | .array items => items.mapM item?
  | _ => none

/-- A branch whose body is read by `nodes?`. -/
def branchWith (depth : Nat) (nodes? : Json → Option (List Node)) (json : Json) :
    Option Branch :=
  match fields? [("condition", none), ("body", none), ("span", none)] json with
  | some [condition, body, span] =>
    match expr? depth condition, nodes? body, span? depth span with
    | some condition, some body, some span => some (.mk condition body span)
    | _, _, _ => none
  | _ => none

/-- A choice whose branches and other parts are read by `branches?` and `nodes?`. -/
def choiceWith (branches? : Json → Option (List Branch)) (nodes? : Json → Option (List Node))
    (json : Json) : Option Node :=
  match fields? [("branches", none), ("otherwise", some .null)] json with
  | some [branches, .null] => (branches? branches).map fun branches => .choice branches none
  | some [branches, otherwise] =>
    match branches? branches, nodes? otherwise with
    | some branches, some nodes => some (.choice branches (some nodes))
    | _, _ => none
  | _ => none

/-- A loop whose body is read by `nodes?`. -/
def loopWith (depth : Nat) (nodes? : Json → Option (List Node)) (json : Json) : Option Node :=
  match fields? [("name", none), ("parent", some .null), ("key", none), ("body", none),
      ("span", none)] json with
  | some [name, parent, key, body, span] =>
    match text? name, optionText? parent, text? key, nodes? body, span? depth span with
    | some name, some parent, some key, some body, some span =>
      some (.loop name parent key body span)
    | _, _, _, _, _ => none
  | _ => none

/-- An instruction. -/
def node? : Nat → Json → Option Node
  | depth + 1, .object [(some name, content)] =>
    if name = "Text".toList then (text? content).map .text
    else if name = "Print".toList then (var? depth content).map .print
    else if name = "Constant".toList then (text? content).map .constant
    else
      match depth with
      | 0 => none
      | inside + 1 =>
        let nodes? : Json → Option (List Node) :=
          match inside with
          | 0 => fun _ => none
          | deeper + 1 => list? (node? deeper)
        if name = "If".toList then
          let branches? : Json → Option (List Branch) :=
            match inside with
            | 0 => fun _ => none
            | 1 => list? fun _ => none
            | deeper + 2 =>
              let nodes? : Json → Option (List Node) :=
                match deeper with
                | 0 => fun _ => none
                | deepest + 1 => list? (node? deepest)
              list? (branchWith deeper nodes?)
          choiceWith branches? nodes? content
        else if name = "Loop".toList then loopWith inside nodes? content
        else none
  | _, _ => none

/-- How deeply the containers of a saved tree may be nested. -/
def maxDepth : Nat := 127

/-- The instructions that a text stands for. -/
def read? (t : Text) : Option (List Node) :=
  (Json.read? t).bind (list? (node? (maxDepth - 1)))

end PageServer.SavedTree
