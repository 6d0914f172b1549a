/-
# Templates

A template on its way from a name to the text of a page: its source or its
saved tree, its variables, its tree, and its text.

* `Template.load`: takes a template from the views
* `Template.parse`: makes its tree, which is saved if the template came from a file
* `Template.compile`: makes its text
-/
import PageServer.Views.Store
import PageServer.Template.Tree

namespace PageServer

/-- A template with what has been made of it. -/
structure Template where
  /-- The name. -/
  name : Text := []
  /-- The source, empty if the tree was saved. -/
  source : Text := []
  /-- The tree, once it is made. -/
  tree : Option (List Node) := none
  /-- The text of the page, once it is made. -/
  output : Option Text := none
  /-- Whether there is a source or a tree. -/
  loaded : Bool := false
  /-- Whether it came from the views. -/
  fromViews : Bool := false
  /-- The variables of the page. -/
  vars : Variables := {}
  deriving Inhabited

namespace Template

/-- A template with a given text. -/
def ofSource (name source : Text) : Template :=
  { name, source, loaded := true }

/-! ## Variables -/

/-- Sets a variable; the text of the page has to be made anew. -/
def set (t : Template) (name : Text) (value : Value) : Template :=
  { t with vars := t.vars.set name value, output := none }

/-- Sets several variables in order. -/
def setMany (t : Template) (pairs : List (Text × Value)) : Template :=
  pairs.foldl (fun t pair => t.set pair.1 pair.2) t

/-- Adds a row to a loop, and whether there was one to add it to. -/
def addRow (t : Template) (path : Text) (row : Fields) : Bool × Template :=
  match t.vars.addRow? path row with
  | some vars => (true, { t with vars, output := none })
  | none => (false, { t with output := none })

/-- Says whether variables that exist may be set again. -/
def setOverwrite (t : Template) (overwrite : Bool) : Template :=
  { t with vars := { t.vars with overwrite } }

/-! ## Loading -/

/-- The template emptied for another name, with its variables. -/
def emptied (t : Template) (name : Text) : Template :=
  { name, vars := t.vars }

/-- Takes a template from the views: its text from memory, its saved tree, or the text of its
file, whichever comes first. The template that is given is left behind, also when there is none
of that name. -/
def load (t : Template) (name : Text) (v : Views) : Except Fault Unit × Template × Views :=
  match Views.checkName name with
  | .error fault => (.error fault, t, v)
  | .ok () =>
    let empty := t.emptied name
    match v.recalled name with
    | (some source, v) =>
      (.ok (), { empty with source, loaded := true, fromViews := true }, v)
    | (none, v) =>
      match v.savedTree name with
      | (some nodes, v) =>
        (.ok (), { empty with tree := some nodes, loaded := true, fromViews := true }, v)
      | (none, v) =>
        match v.readFile name with
        | (some source, v) =>
          (.ok (), { empty with source, loaded := true, fromViews := true }, v)
        | (none, v) => (.error (.templateNotFound name), empty, v)

/-- A template of the views. -/
def open? (name : Text) : Action Views Template :=
  Action.mk fun v =>
    match load {} name v with
    | (.ok (), t, v) => (.ok t, v)
    | (.error fault, _, v) => (.error fault, v)

/-! ## Making the page -/

/-- Saves the tree of a template that came from a file, unless a tree is saved that is not older
than the file. -/
def saveTree (t : Template) (nodes : List Node) (v : Views) : Views :=
  if v.saves && t.fromViews && Disk.isInside t.name && !v.isCurrent t.name then
    v.save t.name nodes
  else v

/-- Makes the tree of a template that has none yet. -/
def parse (t : Template) : Action Views Template :=
  match t.tree with
  | some _ => pure t
  | none =>
    if t.loaded then do
      let nodes ← Node.parse Views.load t.source t.name
      modify (t.saveTree nodes)
      pure { t with tree := some nodes }
    else throw (.templateNotFound t.name)

/-- The text of a template whose tree has been made. -/
def render (t : Template) (constants : Constants) : Except Fault Text :=
  match t.tree with
  | some nodes => Node.render nodes t.vars.fields constants
  | none => .error (.templateNotFound t.name)

/-- Makes the text of a template. The template is given back also when this fails. -/
def compile (t : Template) (v : Views) : Except Fault Text × Template × Views :=
  match Action.run t.parse v with
  | (.error fault, v) => (.error fault, t, v)
  | (.ok t, v) =>
    match t.render v.constants with
    | .ok output => (.ok output, { t with output := some output }, v)
    | .error fault => (.error fault, t, v)

end Template
end PageServer
