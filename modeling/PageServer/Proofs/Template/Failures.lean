/-
# What fails while a page is rendered

The tree of a source has only one way to fail for some variables and constants:
a condition orders a map or a loop. The fault shows the place of the tag with
this condition, wherever it stands inside other tags.

* `Node.branches`: all branches inside an instruction
* `Node.Reaches.branches_subset`: what is rendered has its branches from the tree
* `Node.parse_failures`: failures of the trees of sources, and trees without any
-/
import Mathlib
import PageServer.Proofs.Template.Scoping

namespace PageServer

namespace Node

/-! ## Branches -/

mutual
/-- All branches inside an instruction, each before those inside it. -/
def branches : Node → List Branch
  | text _ | print _ | constant _ => []
  | choice own none => branchesOfChoice own
  | choice own (some nodes) => branchesOfChoice own ++ branchesOfAll nodes
  | loop _ _ _ body _ => branchesOfAll body

/-- Some branches with all branches inside them. -/
def branchesOfChoice : List Branch → List Branch
  | [] => []
  | .mk condition body span :: rest =>
    .mk condition body span :: (branchesOfAll body ++ branchesOfChoice rest)

/-- All branches inside some instructions. -/
def branchesOfAll : List Node → List Branch
  | [] => []
  | node :: rest => node.branches ++ branchesOfAll rest
end

theorem branchesOfAll_eq (nodes : List Node) : branchesOfAll nodes = nodes.flatMap branches := by
  induction nodes with
  | nil => rfl
  | cons node rest ih => rw [branchesOfAll, ih, List.flatMap_cons]

theorem branchesOfChoice_eq (own : List Branch) :
    branchesOfChoice own = own.flatMap fun branch => branch :: branchesOfAll branch.body := by
  induction own with
  | nil => rfl
  | cons branch rest ih =>
      obtain ⟨condition, body, span⟩ := branch
      rw [branchesOfChoice, ih, List.flatMap_cons]
      rfl

/-- The branches of an instruction are among those of all. -/
theorem branches_subset {nodes : List Node} {node : Node} (h : node ∈ nodes) :
    node.branches ⊆ branchesOfAll nodes := by
  rw [branchesOfAll_eq]
  exact fun branch hbranch => List.mem_flatMap.mpr ⟨node, h, hbranch⟩

/-- The branches of a choice are among those of the instruction. -/
theorem branchesOfChoice_subset (own : List Branch) (otherwise : Option (List Node)) :
    branchesOfChoice own ⊆ (choice own otherwise).branches := by
  cases otherwise with
  | none => exact List.Subset.refl _
  | some nodes => exact List.subset_append_left _ _

/-- A branch and those inside it are among the branches of its choice. -/
theorem cons_branches_subset {own : List Branch} {branch : Branch} (h : branch ∈ own) :
    branch :: branchesOfAll branch.body ⊆ branchesOfChoice own := by
  rw [branchesOfChoice_eq]
  exact fun inner hinner => List.mem_flatMap.mpr ⟨branch, h, hinner⟩

/-- What is rendered has its branches from the tree. -/
theorem Reaches.branches_subset {page inside : Page} {nodes : List Node} {node : Node}
    (h : Reaches page nodes inside node) : node.branches ⊆ branchesOfAll nodes := by
  induction h with
  | here h => exact Node.branches_subset h
  | @branch _ _ _ _ own otherwise branch h hbranch _ ih =>
      calc _ ⊆ branchesOfAll branch.body := ih
        _ ⊆ branch :: branchesOfAll branch.body := List.subset_cons_self _ _
        _ ⊆ branchesOfChoice own := cons_branches_subset hbranch
        _ ⊆ (choice own otherwise).branches := branchesOfChoice_subset own otherwise
        _ ⊆ _ := Node.branches_subset h
  | @otherwise _ _ _ body _ own h _ ih =>
      calc _ ⊆ branchesOfAll body := ih
        _ ⊆ (choice own (some body)).branches := List.subset_append_right _ _
        _ ⊆ _ := Node.branches_subset h
  | row h _ _ _ ih => exact List.Subset.trans ih (Node.branches_subset h)

/-! ## Failures -/

/-- The tree of a source fails at a branch whose condition has no value, which rendering comes to
while it passes over the branches before. -/
theorem exists_branch_of_render {σ : Type} {loader : Loader σ} {source file : Text} {state : σ}
    {tree : List Node} (h : (Action.run (parse loader source file) state).1 = .ok tree)
    {vars : Fields} {constants : Constants} {fault : Fault}
    (hfault : render tree vars constants = .error fault) :
    ∃ branch ∈ branchesOfAll tree, ∃ page earlier later otherwise message,
      Visits { vars, constants } tree page (.choice (earlier ++ branch :: later) otherwise) ∧
      (∀ other ∈ earlier, other.Decides page false) ∧
      branch.condition.evaluate page.scope = .error message ∧
      fault = Page.failure branch.span message := by
  have hscoped : NodesScoped none tree := yields_parse (fun _ _ => ofTokens_scoped) state tree h
  obtain ⟨page, earlier, branch, later, otherwise, message, hvisits, hrest⟩ :=
    exists_condition_of_render hscoped hfault
  have hmem : branch ∈ earlier ++ branch :: later :=
    List.mem_append_right _ List.mem_cons_self
  refine ⟨branch, ?_, page, earlier, later, otherwise, message, hvisits, hrest⟩
  apply hvisits.reaches.branches_subset
  apply branchesOfChoice_subset
  exact cons_branches_subset hmem List.mem_cons_self

/-- **The tree of a source fails only where a condition orders a map or a loop. The fault shows
the place of the tag with this condition, which rendering comes to while it passes over the
branches before. A tree without such comparisons never fails.** -/
theorem parse_failures {σ : Type} {loader : Loader σ} {source file : Text} {state : σ}
    {tree : List Node} (h : (Action.run (parse loader source file) state).1 = .ok tree)
    (vars : Fields) (constants : Constants) :
    (∀ fault, render tree vars constants = .error fault →
      ∃ branch ∈ branchesOfAll tree, ∃ page earlier later otherwise message,
        Visits { vars, constants } tree page (.choice (earlier ++ branch :: later) otherwise) ∧
        (∀ other ∈ earlier, other.Decides page false) ∧
        branch.condition.evaluate page.scope = .error message ∧
        (∃ order ∈ branch.condition.orders, Expr.FailsAt page.scope order message) ∧
        fault = .templateFailed branch.span.file branch.span.line
          (Html.escape branch.span.snippet) message) ∧
    ((∀ branch ∈ branchesOfAll tree, branch.condition.orders = []) →
      ∃ text, render tree vars constants = .ok text) := by
  refine ⟨fun fault hfault => ?_, fun hnone => ?_⟩
  · obtain ⟨branch, hbranch, page, earlier, later, otherwise, message, hvisits, hearlier,
      hcondition, rfl⟩ := exists_branch_of_render h hfault
    exact ⟨branch, hbranch, page, earlier, later, otherwise, message, hvisits, hearlier, hcondition,
      Expr.exists_order_of_evaluate hcondition, rfl⟩
  · cases hrender : render tree vars constants with
    | ok text => exact ⟨text, rfl⟩
    | error fault =>
        obtain ⟨branch, hbranch, page, -, -, -, message, -, -, hcondition, -⟩ :=
          exists_branch_of_render h hrender
        obtain ⟨v, hv⟩ := Expr.exists_evaluate_eq_ok (hnone branch hbranch) page.scope
        rw [hv] at hcondition
        contradiction

/-- A loop with a choice for each row, of which the second branch asks for an order. -/
def orderPage : Text :=
  "\x7bLOOP: ab\x7d\x7bIF: ab.ID == 1\x7done\x7bELSEIF: ab.ID < 9\x7dfew\x7b/IF\x7d\x7b/LOOP: ab\x7d"

/-- The place of all tags on this page. -/
def onOrderPage : Span := ⟨"page", 1, orderPage⟩

/-- The branch that asks for an order. -/
def orderBranch : Branch :=
  .mk (.binary .lt (.var ⟨some "ab", ["ID"]⟩) (.lit (.int 9))) [.text "few"] onOrderPage

/-- The tree of the page. -/
def orderTree : List Node :=
  [.loop "ab" none "ab"
    [.choice [.mk (.binary .eq (.var ⟨some "ab", ["ID"]⟩) (.lit (.int 1))) [.text "one"] onOrderPage,
      orderBranch] none] onOrderPage]

/-- Rows with these values. -/
def idRows (values : List Value) : Fields := [("ab", .rows (values.map fun v => [("ID", v)]))]

/-- A map in the second row fails at the second branch. -/
theorem parse_failures_sample :
    (Action.run (parse (Loader.ofTexts .ok) orderPage "page") ()).1 = .ok orderTree ∧
      render orderTree (idRows [.int 1, .map []]) [] = .error
        (.templateFailed "page" 1 (Html.escape orderPage) "cannot compare map with int") ∧
      ∃ branch ∈ branchesOfAll orderTree, ∃ order ∈ branch.condition.orders,
        ∃ page : Page, Expr.FailsAt page.scope order "cannot compare map with int" := by
  have hscan : Token.scan orderPage "page" = .ok
      [⟨.loop "ab", onOrderPage⟩, ⟨.ifStart "ab.ID == 1", onOrderPage⟩, ⟨.text "one", onOrderPage⟩,
        ⟨.elseIf "ab.ID < 9", onOrderPage⟩, ⟨.text "few", onOrderPage⟩, ⟨.endIf, onOrderPage⟩,
        ⟨.endLoop "ab", onOrderPage⟩] := by
    decide +kernel
  have hparse : (Action.run (parse (Loader.ofTexts .ok) orderPage "page") ()).1 =
      .ok orderTree := by
    rw [run_parse hscan (Token.run_expand_of_forall (by simp) _ ())]
    rfl
  have hrender : render orderTree (idRows [.int 1, .map []]) [] = .error
      (.templateFailed "page" 1 (Html.escape orderPage) "cannot compare map with int") := by
    decide +kernel
  obtain ⟨hfails, -⟩ := parse_failures hparse (idRows [.int 1, .map []]) []
  obtain ⟨branch, hbranch, page, -, -, -, message, -, -, -, ⟨order, horder, hat⟩, heq⟩ :=
    hfails _ hrender
  obtain ⟨-, -, -, rfl⟩ := Fault.templateFailed.inj heq
  exact ⟨hparse, hrender, branch, hbranch, order, horder, page, hat⟩

end Node
end PageServer
