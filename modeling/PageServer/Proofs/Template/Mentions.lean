/-
# What a page depends on

The text of a tree depends on the variables and constants that are named in it
and on nothing else. A variable of a loop comes from the current row alone, so
its name says nothing about the variables of the page; of a path only the first
part is looked up among them.

* `Node.mentions`: what an instruction names of a page
* `Page.Agrees`: pages that have the same for all that is named
* `Node.renderAll_congr`: they give the same text, by induction on the tree
* `Variables.get?_set`, `Variables.get?_addRow`: setting leaves the other variables as they are
* `Node.render_mentions`: both together
-/
import Mathlib
import PageServer.Proofs.Template.Visiting
import PageServer.Proofs.Text.Basic

namespace PageServer

/-! ## Names -/

/-- Something of a page that is named in a tree. -/
inductive Mention where
  /-- A variable of the page. -/
  | variable (name : Text)
  /-- A constant. -/
  | constant (name : Text)
  deriving DecidableEq, Repr

/-- A variable of the page is named by the first part of its path; one of a loop is none. -/
def VarRef.mentions (v : VarRef) : List Mention :=
  match v.scope, v.path with
  | none, name :: _ => [.variable name]
  | _, _ => []

/-- What a condition names. -/
def Expr.mentions : Expr → List Mention
  | .lit _ => []
  | .var v => v.mentions
  | .constant name => [.constant name]
  | .not e => e.mentions
  | .binary _ left right => left.mentions ++ right.mentions

namespace Node

mutual
/-- What an instruction names: a loop without a parent names the variable with its rows. -/
def mentions : Node → List Mention
  | text _ => []
  | print v => v.mentions
  | constant name => [.constant name]
  | choice branches none => mentionsOfBranches branches
  | choice branches (some nodes) => mentionsOfBranches branches ++ mentionsOfAll nodes
  | loop _ none key body _ => .variable key :: mentionsOfAll body
  | loop _ (some _) _ body _ => mentionsOfAll body

/-- What some branches name. -/
def mentionsOfBranches : List Branch → List Mention
  | [] => []
  | .mk condition body _ :: rest =>
    condition.mentions ++ (mentionsOfAll body ++ mentionsOfBranches rest)

/-- What some instructions name. -/
def mentionsOfAll : List Node → List Mention
  | [] => []
  | node :: rest => node.mentions ++ mentionsOfAll rest
end

end Node

/-! ## Pages -/

namespace Page

/-- Pages with the same rows that have the same for some names. -/
structure Agrees (names : List Mention) (page other : Page) : Prop where
  /-- They have the same variables of these names. -/
  vars : ∀ name, .variable name ∈ names →
    Table.get? name page.vars = Table.get? name other.vars
  /-- They have the same constants of these names. -/
  constants : ∀ name, .constant name ∈ names →
    Table.get? name page.constants = Table.get? name other.constants
  /-- They have the same rows. -/
  rows : page.rows = other.rows

variable {names more : List Mention} {page other : Page}

theorem Agrees.mono (h : Agrees more page other) (hnames : names ⊆ more) :
    Agrees names page other :=
  ⟨fun name hname => h.vars name (hnames hname),
    fun name hname => h.constants name (hnames hname), h.rows⟩

theorem Agrees.left (h : Agrees (names ++ more) page other) : Agrees names page other :=
  h.mono (List.subset_append_left _ _)

theorem Agrees.right (h : Agrees (names ++ more) page other) : Agrees more page other :=
  h.mono (List.subset_append_right _ _)

theorem Agrees.within (h : Agrees names page other) (row : Row) :
    Agrees names (page.within row) (other.within row) :=
  ⟨h.vars, h.constants, congrArg (row :: ·) h.rows⟩

theorem Agrees.row? (h : Agrees names page other) (name : Text) :
    page.row? name = other.row? name := by
  rw [Page.row?, Page.row?, h.rows]

end Page

/-- Of a path that leads through fields only the first part is looked up in them. -/
theorem Fields.at?_congr {name : Text} {path : List Text} {fields other : Fields}
    (h : Table.get? name fields = Table.get? name other) :
    at? (name :: path) fields = at? (name :: path) other := by
  cases path with
  | nil => exact h
  | cons next path => rw [at?, at?, h] <;> simp

/-- A variable of a loop has the value that the row gives it; it is never one of the page. -/
theorem Page.Agrees.value? {page other : Page} {v : VarRef} (h : Agrees v.mentions page other) :
    page.value? v = other.value? v := by
  obtain ⟨scope, path⟩ := v
  cases scope with
  | some loop => exact congrArg (fun row => row.bind fun row => row.get? path) (h.row? loop)
  | none =>
      cases path with
      | nil => rfl
      | cons name path => exact Fields.at?_congr (h.vars name List.mem_cons_self)

/-- A condition has the same value, or fails in the same way. -/
theorem Page.Agrees.evaluate {page other : Page} {e : Expr} (h : Agrees e.mentions page other) :
    e.evaluate page.scope = e.evaluate other.scope := by
  induction e with
  | lit v => rfl
  | var v => exact congrArg (fun value => Except.ok (value.getD .null)) h.value?
  | constant name =>
      have hname := h.constants name List.mem_cons_self
      exact congrArg (fun value => Except.ok ((value.map Value.str).getD .null)) hname
  | not e ih => rw [Expr.evaluate, Expr.evaluate, ih h]
  | binary op left right ihleft ihright =>
      rw [Expr.evaluate, Expr.evaluate, ihleft h.left, ihright h.right]

/-! ## Texts -/

namespace Node

mutual

theorem renderOne_congr {page other : Page} : ∀ node : Node,
    Page.Agrees node.mentions page other → renderOne page node = renderOne other node
  | .text _, _ => rfl
  | .print v, h => by rw [renderOne, renderOne, h.value?]
  | .constant name, h => by rw [renderOne, renderOne, h.constants name List.mem_cons_self]
  | .choice branches none, h => by
      rw [renderOne, renderOne]
      refine renderChoice_congr ?_ branches h
      rfl
  | .choice branches (some nodes), h => by
      rw [renderOne, renderOne]
      exact renderChoice_congr (renderAll_congr nodes h.right) branches h.left
  | .loop name none key body span, h => by
      have hrows : page.rowsOf none key span = other.rowsOf none key span := by
        rw [Page.rowsOf, Page.rowsOf, h.vars key List.mem_cons_self]
      rw [renderOne, renderOne, hrows]
      cases other.rowsOf none key span with
      | error fault => rfl
      | ok rows =>
          refine Page.forRows_congr (fun fields index => ?_) 0 rows
          exact renderAll_congr body ((h.mono (List.subset_cons_self _ _)).within _)
  | .loop name (some parent) key body span, h => by
      have hrows : page.rowsOf (some parent) key span = other.rowsOf (some parent) key span := by
        rw [Page.rowsOf, Page.rowsOf, h.row? parent]
      rw [renderOne, renderOne, hrows]
      cases other.rowsOf (some parent) key span with
      | error fault => rfl
      | ok rows =>
          exact Page.forRows_congr (fun fields index => renderAll_congr body (h.within _)) 0 rows

theorem renderChoice_congr {page other : Page} {rest rest' : Page → Except Fault Text}
    (hrest : rest page = rest' other) : ∀ branches : List Branch,
    Page.Agrees (mentionsOfBranches branches) page other →
      renderChoice page rest branches = renderChoice other rest' branches
  | [], _ => hrest
  | .mk condition body span :: later, h => by
      rw [renderChoice, renderChoice, h.left.evaluate, renderAll_congr body h.right.left,
        renderChoice_congr hrest later h.right.right]

/-- **Pages that have the same for all names in a tree give the same text, or fail in the same
way.** -/
theorem renderAll_congr {page other : Page} : ∀ nodes : List Node,
    Page.Agrees (mentionsOfAll nodes) page other → renderAll page nodes = renderAll other nodes
  | [], _ => rfl
  | node :: rest, h => by
      rw [renderAll_cons, renderAll_cons, renderOne_congr node h.left, renderAll_congr rest h.right]

end

end Node

/-! ## Setting variables -/

namespace Variables

/-- A value that is set along a path stays under the first name of the path. -/
theorem get?_assign {other : Text} {overwrite : Bool} {value : Value} {path : List Text}
    (h : path.head? ≠ some other) (fields : Fields) :
    Table.get? other (assign overwrite value path fields) = Table.get? other fields := by
  cases path with
  | nil => rfl
  | cons name path =>
      have hne : other ≠ name := fun heq => h (congrArg some heq.symm)
      cases path with
      | nil =>
          rw [assign]
          split
          · exact Table.get?_insert_of_ne hne _ _
          · rfl
      | cons next path =>
          rw [assign]
          · split
            · exact Table.get?_insert_of_ne hne _ _
            · rfl
          · exact List.cons_ne_nil next path

/-- The variables of the entries of a map, in their order. -/
theorem leavesOfFields_eq (name : Text) (fields : List (Text × Value)) :
    leavesOfFields name fields =
      fields.flatMap fun entry => leaves (name ++ ':' :: entry.1) entry.2 := by
  induction fields with
  | nil => rfl
  | cons entry rest ih => rw [leavesOfFields, ih, List.flatMap_cons]

mutual
/-- The path of what is set for a name begins with the path of the name. -/
theorem prefix_of_mem_leaves (name : Text) : ∀ value : Value,
    ∀ leaf ∈ leaves name value, Text.splitOn ':' name <+: Text.splitOn ':' leaf.1
  | .null, _, h | .bool _, _, h | .int _, _, h | .float _, _, h | .str _, _, h | .rows _, _, h => by
      rw [List.mem_singleton.mp h]
  | .map fields, leaf, h => prefix_of_mem_leavesOfFields name fields leaf h

theorem prefix_of_mem_leavesOfFields (name : Text) : ∀ fields : List (Text × Value),
    ∀ leaf ∈ leavesOfFields name fields, Text.splitOn ':' name <+: Text.splitOn ':' leaf.1
  | [], _, h => by contradiction
  | (key, value) :: rest, leaf, h => by
      rcases List.mem_append.mp h with hfirst | hrest
      · have hkey := prefix_of_mem_leaves (name ++ ':' :: key) value leaf hfirst
        rw [Text.splitOn_append] at hkey
        exact (List.prefix_append _ _).trans hkey
      · exact prefix_of_mem_leavesOfFields name rest leaf hrest
end

/-- What is set for a name begins with its first part. -/
theorem firstPart_of_mem_leaves {name : Text} {value : Value} {leaf : Text × Value}
    (h : leaf ∈ leaves name value) : Text.firstPart ':' leaf.1 = Text.firstPart ':' name := by
  obtain ⟨behind, hbehind⟩ := prefix_of_mem_leaves name value leaf h
  have hhead := congrArg List.head? hbehind
  rw [List.head?_append_of_ne_nil _ (Text.splitOn_ne_nil ':' name), Text.head?_splitOn,
    Text.head?_splitOn] at hhead
  exact (Option.some.inj hhead).symm

/-- **Setting a variable leaves all others as they are.** -/
theorem get?_set {other name : Text} (h : Text.firstPart ':' name ≠ other) (vars : Variables)
    (value : Value) :
    Table.get? other (vars.set name value).fields = Table.get? other vars.fields := by
  have hone : ∀ (vars : Variables) (leaf : Text × Value), Text.firstPart ':' leaf.1 ≠ other →
      Table.get? other (vars.setOne leaf.1 leaf.2).fields = Table.get? other vars.fields := by
    intro vars leaf hleaf
    apply get?_assign
    rw [Text.head?_splitOn]
    exact fun heq => hleaf (Option.some.inj heq)
  -- the values are set one after another, all of them for this name
  have hall : ∀ leaf ∈ leaves name value, Text.firstPart ':' leaf.1 ≠ other :=
    fun leaf hleaf => firstPart_of_mem_leaves hleaf ▸ h
  unfold set
  generalize leaves name value = sets at hall
  induction sets generalizing vars with
  | nil => rfl
  | cons leaf rest ih =>
      obtain ⟨hleaf, hrest⟩ := List.forall_mem_cons.mp hall
      rw [List.foldl_cons, ih _ hrest, hone vars leaf hleaf]

/-- A row that is added along a path stays under the first name of the path. -/
theorem get?_appendRow {other : Text} {row fields fields' : Fields} {path : List Text}
    (h : path.head? ≠ some other) (hadd : appendRow? row path fields = some fields') :
    Table.get? other fields' = Table.get? other fields := by
  cases path with
  | nil => contradiction
  | cons name path =>
      have hne : other ≠ name := fun heq => h (congrArg some heq.symm)
      cases path with
      | nil =>
          rw [appendRow?] at hadd
          split at hadd
          · contradiction
          · rw [← Option.some.inj hadd]
            exact Table.get?_insert_of_ne hne _ _
      | cons next path =>
          rw [appendRow?] at hadd
          · split at hadd
            · contradiction
            · obtain ⟨last, -, rfl⟩ := Option.map_eq_some_iff.mp hadd
              exact Table.get?_insert_of_ne hne _ _
          · exact List.cons_ne_nil next path

/-- **Adding a row to a loop leaves all other variables as they are.** -/
theorem get?_addRow {other path : Text} {row : Fields} {vars vars' : Variables}
    (h : Text.firstPart '.' path ≠ other) (hadd : vars.addRow? path row = some vars') :
    Table.get? other vars'.fields = Table.get? other vars.fields := by
  obtain ⟨fields, hfields, rfl⟩ := Option.map_eq_some_iff.mp hadd
  refine get?_appendRow ?_ hfields
  rw [Text.head?_splitOn]
  exact fun heq => h (Option.some.inj heq)

end Variables

/-! ## Both together -/

namespace Node

/-- **The text of a tree depends only on what the tree names: the constants, the first parts of
the variables that are not those of a loop, and the variables with the rows of loops without a
parent. Where these are the same, the text is the same, or the failure. So setting a variable or
adding a row to a loop that the tree does not name changes nothing.** -/
theorem render_mentions (tree : List Node) :
    (∀ (vars vars' : Fields) (constants constants' : Constants),
      (∀ name, .variable name ∈ mentionsOfAll tree → Table.get? name vars = Table.get? name vars') →
      (∀ name, .constant name ∈ mentionsOfAll tree →
        Table.get? name constants = Table.get? name constants') →
      render tree vars constants = render tree vars' constants') ∧
    (∀ (vars : Variables) (constants : Constants) (name : Text) (value : Value),
      .variable (Text.firstPart ':' name) ∉ mentionsOfAll tree →
        render tree (vars.set name value).fields constants = render tree vars.fields constants) ∧
    ∀ (vars vars' : Variables) (constants : Constants) (path : Text) (row : Fields),
      .variable (Text.firstPart '.' path) ∉ mentionsOfAll tree →
        vars.addRow? path row = some vars' →
          render tree vars'.fields constants = render tree vars.fields constants := by
  have hsame : ∀ (vars vars' : Fields) (constants constants' : Constants),
      (∀ name, .variable name ∈ mentionsOfAll tree → Table.get? name vars = Table.get? name vars') →
      (∀ name, .constant name ∈ mentionsOfAll tree →
        Table.get? name constants = Table.get? name constants') →
      render tree vars constants = render tree vars' constants' :=
    fun vars vars' constants constants' hvars hconstants =>
      renderAll_congr tree ⟨hvars, hconstants, rfl⟩
  refine ⟨hsame, fun vars constants name value hname => ?_,
    fun vars vars' constants path row hpath hadd => ?_⟩
  · refine hsame _ _ _ _ (fun other hother => ?_) fun _ _ => rfl
    exact Variables.get?_set (fun heq => hname (heq ▸ hother)) vars value
  · refine hsame _ _ _ _ (fun other hother => ?_) fun _ _ => rfl
    exact Variables.get?_addRow (fun heq => hpath (heq ▸ hother)) hadd

/-- A tree that names the variables `USER` and `list` and the constant `SITE`; `NAME` is the name
of a variable of a row. -/
def mentioningTree : List Node :=
  [.constant "SITE", .print ⟨none, ["USER", "NAME"]⟩,
    .loop "list" none "list" [.print ⟨some "list", ["NAME"]⟩] ⟨"page", 1, []⟩]

/-- Variables for it. -/
def mentionedFields : Variables :=
  { fields := [("USER", .map [("NAME", .str "a")]), ("list", .rows [[("NAME", .str "b")], []])] }

/-- A variable with the name of one of the rows does not stand in for it. -/
theorem render_mentions_sample :
    .variable (Text.firstPart ':' "NAME:FIRST") ∉ mentionsOfAll mentioningTree ∧
      render mentioningTree mentionedFields.fields [("SITE", "s")] = .ok "sab" ∧
      render mentioningTree (mentionedFields.set "NAME:FIRST" (.str "c")).fields [("SITE", "s")] =
        .ok "sab" ∧
      render mentioningTree (("NAME", .str "c") :: mentionedFields.fields)
        [("OTHER", "t"), ("SITE", "s")] = .ok "sab" := by
  obtain ⟨hsame, hset, -⟩ := render_mentions mentioningTree
  have hname : .variable (Text.firstPart ':' "NAME:FIRST") ∉ mentionsOfAll mentioningTree := by
    decide
  have htext : render mentioningTree mentionedFields.fields [("SITE", "s")] = .ok "sab" := by
    decide +kernel
  refine ⟨hname, htext, (hset mentionedFields _ _ _ hname).trans htext, ?_⟩
  refine (hsame _ mentionedFields.fields _ [("SITE", "s")] (fun name hmem => ?_)
    fun name hmem => ?_).trans htext
  · have hcases : name = "USER".toList ∨ name = "list".toList := by
      simpa [mentioningTree, mentionsOfAll, mentions, VarRef.mentions] using hmem
    rcases hcases with rfl | rfl <;> rfl
  · have hcase : name = "SITE".toList := by
      simpa [mentioningTree, mentionsOfAll, mentions, VarRef.mentions] using hmem
    rw [hcase]
    rfl

end Node
end PageServer
