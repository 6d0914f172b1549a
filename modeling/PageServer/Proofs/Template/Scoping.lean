/-
# Loops inside loops

While a template is read, the loops that are open stand on a stack; while it is
rendered, the rows that are current stand on another one, where they are found
by the names of their loops. Both stacks hold the same names in the same order.
So a loop always takes its rows from the row on top, also where an outer loop
has the same name, and there is no need to search for it.

* `NodesScoped`: each loop names the loop that is next around it
* `Draft.steps_scoped`, `Draft.run_scoped`: tokens are read into such trees
* `Node.Reaches.scoped`: what is rendered on a page names its innermost loop
* `Node.direct`: the text of a tree, with the rows of each loop taken from the row on top
* `Node.parse_scoped`: the trees of sources, and what follows for their texts
-/
import Mathlib
import PageServer.Proofs.Condition.Ordering
import PageServer.Proofs.Template.Choices
import PageServer.Proofs.Template.Visiting

namespace PageServer

/-! ## Trees -/

/-- The part of a name behind its last dot, the whole name if it has none. -/
def Text.lastPart (name : Text) : Text :=
  match Text.cutLast '.' name with
  | none => name
  | some (_, last) => last

mutual
/-- Each loop in an instruction has the loop next around it as its parent, if there is one, and
the last part of its own name as its key. -/
def Node.Scoped (enclosing : Option Text) : Node → Prop
  | .text _ => True
  | .print _ => True
  | .constant _ => True
  | .choice branches none => BranchesScoped enclosing branches
  | .choice branches (some nodes) => BranchesScoped enclosing branches ∧ NodesScoped enclosing nodes
  | .loop name parent key body _ =>
    parent = enclosing ∧ key = Text.lastPart name ∧ NodesScoped (some name) body

/-- The same for each of some branches. -/
def BranchesScoped (enclosing : Option Text) : List Branch → Prop
  | [] => True
  | .mk _ body _ :: rest => NodesScoped enclosing body ∧ BranchesScoped enclosing rest

/-- The same for each of some instructions. -/
def NodesScoped (enclosing : Option Text) : List Node → Prop
  | [] => True
  | node :: rest => node.Scoped enclosing ∧ NodesScoped enclosing rest
end

theorem nodesScoped_iff {enclosing : Option Text} {nodes : List Node} :
    NodesScoped enclosing nodes ↔ ∀ node ∈ nodes, node.Scoped enclosing := by
  induction nodes with
  | nil => simp [NodesScoped]
  | cons node rest ih => rw [NodesScoped, ih, List.forall_mem_cons]

theorem branchesScoped_iff {enclosing : Option Text} {branches : List Branch} :
    BranchesScoped enclosing branches ↔
      ∀ branch ∈ branches, NodesScoped enclosing branch.body := by
  induction branches with
  | nil => simp [BranchesScoped]
  | cons branch rest ih =>
      obtain ⟨condition, body, span⟩ := branch
      rw [BranchesScoped, ih, List.forall_mem_cons]
      rfl

/-! ## Drafts -/

/-- An open tag with `enclosing` as the innermost loop around it. -/
def OpenTag.Scoped (enclosing : Option Text) : OpenTag → Prop
  | .branch _ earlier _ _ => BranchesScoped enclosing earlier
  | .otherwise _ branches => BranchesScoped enclosing branches
  | .loop name parent key _ => parent = enclosing ∧ key = Text.lastPart name

namespace Draft

/-- Open tags and the instructions before them, for each of which the innermost loop is among the
tags around it. -/
def LayersScoped : List (OpenTag × List Node) → Prop
  | [] => True
  | (tag, outer) :: layers =>
    tag.Scoped (innermost layers) ∧ NodesScoped (innermost layers) outer ∧ LayersScoped layers

/-- What has been read of a tree in which each loop names the loop next around it. -/
structure Scoped (d : Draft) : Prop where
  /-- It holds in the open tags and before them. -/
  layers : LayersScoped d.layers
  /-- It holds in the innermost block. -/
  nodes : NodesScoped (innermost d.layers) d.nodes

variable {enclosing : Option Text}

/-- A block that is closed has the loops of its instructions. -/
theorem nodesScoped_reverse {nodes : List Node} (h : NodesScoped enclosing nodes) :
    NodesScoped enclosing nodes.reverse := by
  rw [nodesScoped_iff] at h ⊢
  intro node hnode
  exact h node (List.mem_reverse.mp hnode)

/-- A branch that is closed goes behind the ones before it. -/
theorem branchesScoped_append {earlier : List Branch} {nodes : List Node} (condition : Expr)
    (span : Span) (hearlier : BranchesScoped enclosing earlier)
    (hnodes : NodesScoped enclosing nodes) :
    BranchesScoped enclosing (earlier ++ [.mk condition nodes.reverse span]) := by
  rw [branchesScoped_iff] at hearlier ⊢
  intro branch hbranch
  rcases List.mem_append.mp hbranch with hold | hnew
  · exact hearlier branch hold
  · obtain rfl := List.mem_singleton.mp hnew
    exact nodesScoped_reverse hnodes

theorem push_scoped {d : Draft} {node : Node} (hd : d.Scoped)
    (hnode : node.Scoped (innermost d.layers)) : (d.push node).Scoped := by
  unfold push
  split
  · rename_i heq
    have hnodes := hd.nodes
    rw [heq] at hnodes
    exact ⟨hd.layers, trivial, hnodes.2⟩
  · exact ⟨hd.layers, hnode, hd.nodes⟩

theorem enter_scoped {d : Draft} {tag : OpenTag} (hd : d.Scoped)
    (htag : tag.Scoped (innermost d.layers)) : (d.enter tag).Scoped :=
  ⟨⟨htag, hd.nodes, hd.layers⟩, trivial⟩

/-- The rows of a loop are looked up in the loop next around it, by the last part of its name. -/
theorem of_loopSource {span : Span} {name key : Text} {parent : Option Text}
    (h : loopSource enclosing span name = .ok (parent, key)) :
    parent = enclosing ∧ key = Text.lastPart name := by
  unfold loopSource at h
  unfold Text.lastPart
  cases hcut : Text.cutLast '.' name with
  | none =>
      simp only [hcut] at h
      obtain ⟨rfl, rfl⟩ := Prod.mk.inj (Except.ok.inj h)
      exact ⟨rfl, rfl⟩
  | some sides =>
      simp only [hcut] at h
      split at h
      · contradiction
      split at h
      · rename_i henclosing
        obtain ⟨rfl, rfl⟩ := Prod.mk.inj (Except.ok.inj h)
        exact ⟨henclosing.symm, rfl⟩
      · contradiction

/-- **A token that is read keeps each loop in the loop that it names.** -/
theorem steps_scoped {d d' : Draft} {token : Token} (hd : d.Scoped) (h : Steps d token d') :
    d'.Scoped := by
  -- a tag of a choice that is opened or closed leaves the innermost loop as it is
  cases h with
  | text => exact push_scoped hd trivial
  | print => exact push_scoped hd trivial
  | constant => exact push_scoped hd trivial
  | ifStart => exact enter_scoped hd trivial
  | loop hsource =>
      rw [innermostLoop_eq] at hsource
      exact enter_scoped hd (of_loopSource hsource)
  | elseIf =>
      obtain ⟨⟨hearlier, houter, hlayers⟩, hnodes⟩ := hd
      exact ⟨⟨branchesScoped_append _ _ hearlier hnodes, houter, hlayers⟩, trivial⟩
  | otherwise =>
      obtain ⟨⟨hearlier, houter, hlayers⟩, hnodes⟩ := hd
      exact ⟨⟨branchesScoped_append _ _ hearlier hnodes, houter, hlayers⟩, trivial⟩
  | endIf =>
      obtain ⟨⟨hearlier, houter, hlayers⟩, hnodes⟩ := hd
      exact ⟨hlayers, branchesScoped_append _ _ hearlier hnodes, houter⟩
  | endElse =>
      obtain ⟨⟨hbranches, houter, hlayers⟩, hnodes⟩ := hd
      exact ⟨hlayers, ⟨hbranches, nodesScoped_reverse hnodes⟩, houter⟩
  | endLoop =>
      obtain ⟨⟨⟨hparent, hkey⟩, houter, hlayers⟩, hnodes⟩ := hd
      exact ⟨hlayers, ⟨hparent, hkey, nodesScoped_reverse hnodes⟩, houter⟩

/-- Tokens that are read in order keep each loop in the loop that it names. -/
theorem run_scoped {tokens : List Token} {d d' : Draft} (hd : d.Scoped)
    (h : d.run tokens = .ok d') : d'.Scoped := keeps_of_run steps_scoped hd h

end Draft

/-- **Each loop in the tree of some tokens names the loop next around it.** -/
theorem Node.ofTokens_scoped {tokens : List Token} {tree : List Node}
    (h : ofTokens tokens = .ok tree) : NodesScoped none tree := by
  obtain ⟨nodes, hrun, rfl⟩ := ofTokens_eq_ok_iff.mp h
  exact Draft.nodesScoped_reverse (Draft.run_scoped (d := {}) ⟨trivial, trivial⟩ hrun).nodes

/-! ## Pages -/

namespace Page

/-- The name of the innermost loop that is rendered. -/
def innermost (page : Page) : Option Text := page.rows.head?.map Row.name

/-- The rows of a key in the row on top, or among the variables if there is no row. -/
def innermostRows (page : Page) (key : Text) : List Fields :=
  Variables.rowsOf (Table.get? key ((page.rows.head?.map Row.fields).getD page.vars))

/-- The row that is found by the name of the innermost loop is the one on top, whatever the names
of the others are. -/
theorem bind_row?_innermost (page : Page) : page.innermost.bind page.row? = page.rows.head? := by
  obtain ⟨vars, constants, _ | ⟨row, rows⟩⟩ := page
  · rfl
  · simp [innermost, row?]

/-- A loop whose parent is the innermost loop takes its rows from the row on top. -/
theorem rowsOf_innermost (page : Page) (key : Text) (span : Span) :
    page.rowsOf page.innermost key span = .ok (page.innermostRows key) := by
  have htop := page.bind_row?_innermost
  obtain ⟨vars, constants, _ | ⟨row, rows⟩⟩ := page
  · rfl
  · simp only [innermost, List.head?_cons, Option.map_some, Option.bind_some] at htop
    simp only [rowsOf, innermost, List.head?_cons, Option.map_some, htop]
    rfl

end Page

namespace Node

/-! ## What is rendered -/

/-- What is rendered on a page is scoped by the innermost loop of this page. -/
theorem Reaches.scoped {page inside : Page} {nodes : List Node} {node : Node}
    (h : Reaches page nodes inside node) (hnodes : NodesScoped page.innermost nodes) :
    node.Scoped inside.innermost := by
  induction h with
  | here h => exact nodesScoped_iff.mp hnodes _ h
  | @branch _ _ _ _ _ otherwise _ h hbranch _ ih =>
      have hchoice := nodesScoped_iff.mp hnodes _ h
      apply ih
      cases otherwise with
      | none => exact branchesScoped_iff.mp hchoice _ hbranch
      | some body => exact branchesScoped_iff.mp hchoice.1 _ hbranch
  | otherwise h _ ih => exact ih (nodesScoped_iff.mp hnodes _ h).2
  | row h _ _ _ ih => exact ih (nodesScoped_iff.mp hnodes _ h).2.2

/-! ## Rendering from the row on top -/

mutual
/-- The text of one instruction, where a loop takes its rows from the row on top. -/
def directOne (page : Page) : Node → Except Fault Text
  | text t => .ok t
  | print v => .ok (((page.value? v).map Value.text).getD [])
  | constant name => .ok ((Table.get? name page.constants).getD [])
  | choice branches none => directChoice page (fun _ => .ok []) branches
  | choice branches (some nodes) => directChoice page (fun page => directAll page nodes) branches
  | loop name _ key body _ =>
    page.forRows name (page.innermostRows key).length (fun page => directAll page body) 0
      (page.innermostRows key)

/-- The text of the first branch whose condition holds, or of what stands for none of them. -/
def directChoice (page : Page) (otherwise : Page → Except Fault Text) :
    List Branch → Except Fault Text
  | [] => otherwise page
  | .mk condition body span :: rest =>
    match condition.evaluate page.scope with
    | .error message => .error (Page.failure span message)
    | .ok v => if v.truthy then directAll page body else directChoice page otherwise rest

/-- The text of instructions in order. -/
def directAll (page : Page) : List Node → Except Fault Text
  | [] => .ok []
  | node :: rest => Page.followedBy (directOne page node) (directAll page rest)
end

/-- The text of a tree, where each loop takes its rows from the row on top. -/
def direct (nodes : List Node) (vars : Fields) (constants : Constants) : Except Fault Text :=
  directAll { vars, constants } nodes

mutual

theorem renderOne_eq_directOne (page : Page) : ∀ node : Node, node.Scoped page.innermost →
    renderOne page node = directOne page node
  | .text _, _ => rfl
  | .print _, _ => rfl
  | .constant _, _ => rfl
  | .choice branches none, h => by
      rw [renderOne, directOne, renderChoice_eq_directChoice page rfl branches h]
  | .choice branches (some nodes), h => by
      rw [renderOne, directOne]
      exact renderChoice_eq_directChoice page (renderAll_eq_directAll page nodes h.2) branches h.1
  | .loop name parent key body span, h => by
      obtain ⟨rfl, -, hbody⟩ := h
      rw [renderOne, directOne, page.rowsOf_innermost]
      refine Page.forRows_congr (fun fields index => ?_) 0 _
      exact renderAll_eq_directAll (page.within ⟨name, fields, index, _⟩) body hbody

theorem renderChoice_eq_directChoice (page : Page) {otherwise otherwise' : Page → Except Fault Text}
    (hotherwise : otherwise page = otherwise' page) :
    ∀ branches : List Branch, BranchesScoped page.innermost branches →
      renderChoice page otherwise branches = directChoice page otherwise' branches
  | [], _ => hotherwise
  | .mk condition body span :: rest, h => by
      rw [renderChoice, directChoice]
      cases condition.evaluate page.scope with
      | error message => rfl
      | ok v =>
          dsimp only
          rw [renderAll_eq_directAll page body h.1,
            renderChoice_eq_directChoice page hotherwise rest h.2]

/-- **Instructions whose loops name the loops next around them are rendered from the rows on
top.** -/
theorem renderAll_eq_directAll (page : Page) : ∀ nodes : List Node,
    NodesScoped page.innermost nodes → renderAll page nodes = directAll page nodes
  | [], _ => rfl
  | node :: rest, h => by
      rw [renderAll_cons, directAll, renderOne_eq_directOne page node h.1,
        renderAll_eq_directAll page rest h.2]

end

/-! ## Failures -/

/-- Such instructions fail only at a condition that has no value. -/
theorem exists_condition_of_render {tree : List Node} {vars : Fields} {constants : Constants}
    {fault : Fault} (hscoped : NodesScoped none tree)
    (h : render tree vars constants = .error fault) :
    ∃ page earlier branch later otherwise message,
      Visits { vars, constants } tree page (.choice (earlier ++ branch :: later) otherwise) ∧
      (∀ other ∈ earlier, other.Decides page false) ∧
      branch.condition.evaluate page.scope = .error message ∧
      fault = Page.failure branch.span message := by
  obtain ⟨inside, node, hvisits, hfails⟩ := failsInside_of_renderAll _ tree h
  cases hfails with
  | condition hearlier hcondition =>
      exact ⟨inside, _, _, _, _, _, hvisits, hearlier, hcondition, rfl⟩
  | rows hrows =>
      -- its parent is the loop around it, whose row is there
      obtain ⟨rfl, -, -⟩ := hvisits.reaches.scoped hscoped
      rw [inside.rowsOf_innermost] at hrows
      contradiction

/-! ## Sources -/

/-- What holds of the trees of all tokens holds of the trees of all sources. -/
theorem yields_parse {σ : Type} {loader : Loader σ} {source file : Text} {P : List Node → Prop}
    (h : ∀ tokens tree, ofTokens tokens = .ok tree → P tree) :
    Action.Yields P (parse loader source file) := by
  have hanything : ∀ {α : Type} (action : Action σ α), Action.Yields (fun _ => True) action :=
    fun _ _ _ _ => trivial
  refine (hanything _).bind fun scanned _ => (hanything _).bind fun tokens _ => ?_
  exact Action.yields_ofExcept (h tokens)

/-- **In the tree of a source each loop has the loop next around it as its parent, and the last
part of its name as its key. So wherever a loop is rendered, its rows come from the row on top:
the row that is found by the name of its parent is this one, and the text is the one that is
rendered without a search. It never fails for a loop that is not active.** -/
theorem parse_scoped {σ : Type} {loader : Loader σ} {source file : Text} {state : σ}
    {tree : List Node} (h : (Action.run (parse loader source file) state).1 = .ok tree) :
    NodesScoped none tree ∧
    ∀ vars constants,
      (∀ page name parent key body span,
        Reaches { vars, constants } tree page (.loop name parent key body span) →
          parent.bind page.row? = page.rows.head? ∧
          page.rowsOf parent key span = .ok (page.innermostRows key)) ∧
      render tree vars constants = direct tree vars constants ∧
      ∀ span name, render tree vars constants ≠
        .error (Page.failure span ("loop \x27" ++ name ++ "\x27 is not active")) := by
  have hscoped : NodesScoped none tree := yields_parse (fun _ _ => ofTokens_scoped) state tree h
  refine ⟨hscoped, fun vars constants => ?_⟩
  have hdirect : render tree vars constants = direct tree vars constants :=
    renderAll_eq_directAll { vars, constants } tree hscoped
  refine ⟨fun page name parent key body span hreaches => ?_, hdirect, fun span name hfault => ?_⟩
  · obtain ⟨rfl, -, -⟩ := hreaches.scoped hscoped
    exact ⟨page.bind_row?_innermost, page.rowsOf_innermost key span⟩
  · obtain ⟨page, -, branch, -, -, message, -, -, hcondition, heq⟩ :=
      exists_condition_of_render hscoped hfault
    obtain ⟨order, -, left, right, -, -, -, rfl⟩ := Expr.exists_order_of_evaluate hcondition
    -- the messages differ in their first letters
    have hletter : 'l' = 'c' := (List.cons.inj (Fault.templateFailed.inj heq).2.2.2).1
    exact absurd hletter (by decide)

/-- A loop inside a loop of the same name. -/
def doublePage : Text :=
  "\x7bLOOP: ab\x7d\x7bLOOP: ab\x7d\x7bab.ID\x7d\x7b/LOOP: ab\x7d;\x7b/LOOP: ab\x7d"

/-- A place on this page. -/
def onDoublePage : Span := ⟨"page", 1, doublePage⟩

/-- Its tree. -/
def doubleTree : List Node :=
  [.loop "ab" none "ab" [.loop "ab" (some "ab") "ab" [.print ⟨some "ab", ["ID"]⟩] onDoublePage,
    .text ";"] onDoublePage]

/-- Two rows, the first one with two rows of its own and the second one with one. -/
def doubleRows : Fields :=
  [("ab", .rows [[("ab", .rows [[("ID", .int 1)], [("ID", .int 2)]])],
    [("ab", .rows [[("ID", .int 3)]])]])]

/-- The rows of the inner loop are those of the outer row that is current, the names being the
same. -/
theorem parse_scoped_sample :
    (Action.run (parse (Loader.ofTexts .ok) doublePage "page") ()).1 = .ok doubleTree ∧
      NodesScoped none doubleTree ∧ render doubleTree doubleRows [] = .ok "12;3;" := by
  have hscan : Token.scan doublePage "page" = .ok
      [⟨.loop "ab", onDoublePage⟩, ⟨.loop "ab", onDoublePage⟩,
        ⟨.reference (.var ⟨some "ab", ["ID"]⟩), onDoublePage⟩, ⟨.endLoop "ab", onDoublePage⟩,
        ⟨.text ";", onDoublePage⟩, ⟨.endLoop "ab", onDoublePage⟩] := by
    decide +kernel
  have hparse : (Action.run (parse (Loader.ofTexts .ok) doublePage "page") ()).1 =
      .ok doubleTree := by
    rw [run_parse hscan (Token.run_expand_of_forall (by simp) _ ())]
    rfl
  obtain ⟨hscoped, hrender⟩ := parse_scoped hparse
  obtain ⟨-, hdirect, -⟩ := hrender doubleRows []
  exact ⟨hparse, hscoped, hdirect.trans rfl⟩

end Node
end PageServer
