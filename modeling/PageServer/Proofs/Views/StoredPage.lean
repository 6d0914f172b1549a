/-
# The page that a template stores

A template keeps the tree that was made of its source and the page that was made
of the tree. The tree stays until another template is loaded. The page is always
the one that would be made now, as every call that changes a variable or the
tree drops it.

* `Template.Call`, `Template.call`, `Template.calls`: what is done with a template
* `Template.HoldsPage`: the invariant
* `Template.HoldsPage.call`, `Template.tree_call`: what one call keeps
* `Template.page_of_calls`: what any calls keep
-/
import PageServer.Proofs.Views.Upkeep

namespace PageServer.Template

/-! ## Calls -/

/-- What is done with a template. -/
inductive Call where
  /-- Takes another one from the views. -/
  | load (name : Text)
  /-- Sets a variable. -/
  | set (name : Text) (value : Value)
  /-- Sets several variables. -/
  | setMany (pairs : List (Text × Value))
  /-- Adds a row to a loop. -/
  | addRow (path : Text) (row : Fields)
  /-- Says whether variables that exist may be set again. -/
  | setOverwrite (overwrite : Bool)
  /-- Makes the tree. -/
  | parse
  /-- Makes the page. -/
  | compile

/-- The template after a call, with the views as they are then. -/
def call (t : Template) (v : Views) : Call → Template
  | .load name => (t.load name v).2.1
  | .set name value => t.set name value
  | .setMany pairs => t.setMany pairs
  | .addRow path row => (t.addRow path row).2
  | .setOverwrite overwrite => t.setOverwrite overwrite
  | .parse => (Action.run t.parse v).1.toOption.getD t
  | .compile => (t.compile v).2.1

/-- The template after some calls. The views of each call are given with it, as files may be
edited and other templates be opened between two calls. -/
def calls (t : Template) (made : List (Views × Call)) : Template :=
  made.foldl (fun t c => t.call c.1 c.2) t

/-- A template that nothing was done with. -/
inductive IsNew : Template → Prop
  /-- It is empty. -/
  | empty : IsNew {}
  /-- Its text is given. -/
  | ofSource (name source : Text) : IsNew (ofSource name source)

/-- Whether a call takes another template from the views: a name that is refused does not. -/
def Call.Reloads : Call → Prop
  | load name => Disk.isInside name = true
  | _ => False

variable {t : Template} {constants : Constants}

/-! ## The tree -/

/-- A tree that is made is put into the template, unless there was one. -/
theorem of_run_parse {after : Template} {v : Views} (h : (Action.run t.parse v).1 = .ok after) :
    ∃ nodes, after = { t with tree := some nodes } ∧ (t.tree = none ∨ t.tree = some nodes) := by
  cases htree : t.tree with
  | some nodes =>
      rw [run_parse_of_tree htree] at h
      refine ⟨nodes, ?_, .inr rfl⟩
      rw [← Except.ok.inj h, ← htree]
  | none =>
      by_cases hloaded : t.loaded = true
      · rw [run_parse_of_source htree hloaded] at h
        rcases hrun : Action.run (Node.parse Views.load t.source t.name) v with ⟨result, w⟩
        rw [hrun] at h
        cases result with
        | error fault => contradiction
        | ok nodes => exact ⟨nodes, (Except.ok.inj h).symm, .inl rfl⟩
      · rw [run_parse_of_unloaded htree (Bool.eq_false_iff.mpr hloaded)] at h
        contradiction

/-- Setting variables leaves the tree. -/
theorem tree_setMany (t : Template) (pairs : List (Text × Value)) :
    (t.setMany pairs).tree = t.tree := by
  induction pairs generalizing t with
  | nil => rfl
  | cons pair rest ih => exact ih (t.set pair.1 pair.2)

/-- A tree stays whatever is done, unless another template is loaded. -/
theorem tree_call {nodes : List Node} (h : t.tree = some nodes) (v : Views) {c : Call}
    (hc : ¬ c.Reloads) : (t.call v c).tree = some nodes := by
  cases c with
  | load name =>
      have hrefused : Views.checkName name = .error .invalidPath := if_neg hc
      simp only [call, load, hrefused]
      exact h
  | set name value => exact h
  | setMany pairs =>
      rw [call, tree_setMany]
      exact h
  | addRow path row =>
      simp only [call, addRow]
      split <;> exact h
  | setOverwrite overwrite => exact h
  | parse =>
      rw [call, run_parse_of_tree h]
      exact h
  | compile =>
      obtain ⟨output, houtput⟩ := compile_template t v
      rw [call, houtput, run_parse_of_tree h]
      exact h

/-! ## The page -/

/-- The page that a template holds, if any, is what its tree gives now. -/
def HoldsPage (constants : Constants) (t : Template) : Prop :=
  ∀ output, t.output = some output →
    ∃ nodes, t.tree = some nodes ∧ Node.render nodes t.vars.fields constants = .ok output

/-- A template without a page holds none. -/
theorem HoldsPage.of_none (h : t.output = none) : t.HoldsPage constants := by
  intro output houtput
  rw [h] at houtput
  contradiction

namespace HoldsPage

/-- Setting variables drops the page, if there are any to set. -/
theorem setMany (h : t.HoldsPage constants) (pairs : List (Text × Value)) :
    (t.setMany pairs).HoldsPage constants := by
  induction pairs generalizing t with
  | nil => exact h
  | cons pair rest ih => exact ih (of_none rfl)

/-- Loading drops the page, or is refused. -/
theorem load (h : t.HoldsPage constants) (name : Text) (v : Views) :
    (t.load name v).2.1.HoldsPage constants := by
  have hfinds := load_finds t name v
  generalize t.load name v = result at hfinds
  cases hfinds with
  | refused fault hcheck => exact h
  | memory hcheck source hsource => exact of_none rfl
  | saved hcheck nodes hnodes => exact of_none rfl
  | file hcheck source hsource => exact of_none rfl
  | missing hcheck hnone => exact of_none rfl

/-- A page was made of the tree, so a template without a tree has none that making the tree could
leave behind. -/
theorem parse (h : t.HoldsPage constants) {after : Template} {v : Views}
    (hparse : (Action.run t.parse v).1 = .ok after) : after.HoldsPage constants := by
  obtain ⟨nodes, rfl, hnone | hsome⟩ := of_run_parse hparse
  · refine of_none ?_
    cases houtput : t.output with
    | none => rfl
    | some output =>
        obtain ⟨made, hmade, -⟩ := h output houtput
        rw [hnone] at hmade
        contradiction
  · intro output houtput
    obtain ⟨made, hmade, hrender⟩ := h output houtput
    obtain rfl : made = nodes := Option.some.inj (hmade.symm.trans hsome)
    exact ⟨made, rfl, hrender⟩

/-- The page that is made is that of the tree. -/
theorem compile (h : t.HoldsPage constants) {v : Views} (hv : v.constants = constants) :
    (t.compile v).2.1.HoldsPage constants := by
  have hconstants : (Action.run t.parse v).2.constants = constants := by
    have hkeeps := upkeeps_parse (P := fun _ => True) t v fun _ _ _ _ => trivial
    rw [hkeeps.constants, hv]
  unfold Template.compile
  rcases hrun : Action.run t.parse v with ⟨result, after⟩
  rw [hrun] at hconstants
  cases result with
  | error fault => exact h
  | ok parsed =>
      have hparsed : parsed.HoldsPage constants := h.parse (congrArg Prod.fst hrun)
      dsimp only at hconstants ⊢
      rw [hconstants]
      cases hrender : parsed.render constants with
      | error fault => exact hparsed
      | ok page =>
          intro output houtput
          obtain rfl := Option.some.inj houtput
          unfold render at hrender
          cases htree : parsed.tree with
          | none =>
              rw [htree] at hrender
              contradiction
          | some nodes =>
              rw [htree] at hrender
              exact ⟨nodes, rfl, hrender⟩

/-- **Every call leaves a page that is up to date, or none.** -/
theorem call (h : t.HoldsPage constants) {v : Views} (hv : v.constants = constants) (c : Call) :
    (t.call v c).HoldsPage constants := by
  cases c with
  | load name => exact h.load name v
  | set name value => exact of_none rfl
  | setMany pairs => exact h.setMany pairs
  | addRow path row =>
      simp only [Template.call, addRow]
      split <;> exact of_none rfl
  | setOverwrite overwrite => exact h
  | parse =>
      rw [Template.call]
      cases hparse : (Action.run t.parse v).1 with
      | error fault => exact h
      | ok after => exact h.parse hparse
  | compile => exact h.compile hv

/-- **So do any calls** with views that have the same constants. -/
theorem calls (h : t.HoldsPage constants) {made : List (Views × Call)}
    (hmade : ∀ c ∈ made, c.1.constants = constants) : (t.calls made).HoldsPage constants := by
  induction made generalizing t with
  | nil => exact h
  | cons c rest ih =>
      obtain ⟨hc, hrest⟩ := List.forall_mem_cons.mp hmade
      exact ih (h.call hc c.2) hrest

end HoldsPage

/-- A tree stays through any calls that load no other template. -/
theorem tree_calls {nodes : List Node} (h : t.tree = some nodes) {made : List (Views × Call)}
    (hmade : ∀ c ∈ made, ¬ c.2.Reloads) : (t.calls made).tree = some nodes := by
  induction made generalizing t with
  | nil => exact h
  | cons c rest ih =>
      obtain ⟨hc, hrest⟩ := List.forall_mem_cons.mp hmade
      exact ih (tree_call h c.1 hc) hrest

/-- **The page that a template stores is never out of date.** After any calls, whether they succeed
or fail, with views that have the same constants, a template that holds a page has a tree, and the
page is what the tree gives with the variables as they are. From when it has a tree until the next
template is loaded, the tree stays the same. -/
theorem page_of_calls (ht : t.IsNew) {made : List (Views × Call)}
    (hmade : ∀ c ∈ made, c.1.constants = constants) :
    (∀ output, (t.calls made).output = some output →
      ∃ nodes, (t.calls made).tree = some nodes ∧
        Node.render nodes (t.calls made).vars.fields constants = .ok output) ∧
      ∀ more : List (Views × Call), (∀ c ∈ more, ¬ c.2.Reloads) → ∀ nodes,
        (t.calls made).tree = some nodes → (t.calls (made ++ more)).tree = some nodes := by
  have hnew : t.HoldsPage constants := by
    cases ht with
    | empty => exact .of_none rfl
    | ofSource name source => exact .of_none rfl
  refine ⟨hnew.calls hmade, ?_⟩
  intro more hmore nodes htree
  rw [calls, List.foldl_append]
  exact tree_calls htree hmore

/-- Views with a page for someone, and a constant. -/
def greetingViews : Views where
  disk := { entries := [(["hi.html"], .file (Utf8.encode "Hi {NAME} of {C:SITE}") 0)] }
  recent := { capacity := 1 }
  maxAge := 0
  constants := [("SITE", "demo")]

/-- The page is loaded and made for someone, and a tree is asked for again. -/
def greetingCalls : List (Views × Call) :=
  [.load "hi.html", .set "NAME" (.str "Ann"), .compile, .setOverwrite false, .load "../hi.html",
    .parse].map (greetingViews, ·)

/-- The page is there, and the tree stays while the name changes. -/
theorem page_of_calls_sample :
    IsNew {} ∧ (∀ c ∈ greetingCalls, c.1.constants = greetingViews.constants) ∧
      (∃ nodes, (calls {} greetingCalls).tree = some nodes ∧
        Node.render nodes (calls {} greetingCalls).vars.fields greetingViews.constants =
          .ok "Hi Ann of demo" ∧
        (calls {} (greetingCalls ++ [(greetingViews, .set "NAME" (.str "Bob"))])).tree =
          some nodes) := by
  have hconstants : ∀ c ∈ greetingCalls, c.1.constants = greetingViews.constants := by
    intro c hc
    obtain ⟨_, -, rfl⟩ := List.mem_map.mp hc
    rfl
  have houtput : (calls {} greetingCalls).output = some "Hi Ann of demo".toList := by
    decide +kernel
  obtain ⟨hpage, htree⟩ := page_of_calls .empty hconstants
  obtain ⟨nodes, hnodes, hrender⟩ := hpage _ houtput
  refine ⟨.empty, hconstants, nodes, hnodes, hrender, htree _ ?_ nodes hnodes⟩
  intro c hc
  obtain rfl := List.mem_singleton.mp hc
  exact not_false

end PageServer.Template
