/-
# Caches over files that do not change

Whoever works with the templates of files that do not change can not tell
whether the views keep anything: each answer is the one that the files alone
give, so it is the same with nothing in memory and no saved trees. The names of
the templates have to lead outside the folder of the saved trees, and no two of
them may share a saved file.

* `Desk.Sheet`: what a desk amounts to by the files alone, with its own steps
* `Desk.step_sheet`, `Desk.answers_eq_sheet`: a desk answers as its sheet does
* `Desk.plainAnswers`: the answers when nothing is kept
* `Desk.answers_eq_plainAnswers`: they are the same
-/
import PageServer.Proofs.Views.Desk

namespace PageServer

/-! ## Saved trees that are not shared -/

/-- Templates of which no two share a saved file, and in which every finite floating-point number
is read as it was saved. -/
structure Views.Separate (files : Disk) (opened : Set Text) : Prop where
  distinct : Set.InjOn Views.savedFile opened
  readsBack : ∀ name ∈ opened, ∀ nodes, files.treeOf name = .ok nodes →
    NodesLiterals Value.ReadsBack nodes

/-- **Then the tree that is saved for a template is its own.** -/
theorem Views.SavedFor.treeOf_eq {files : Disk} {opened : Set Text} {name : Text}
    {nodes : List Node} (hseparate : Views.Separate files opened) (hname : name ∈ opened)
    (h : Views.SavedFor files opened name nodes) : files.treeOf name = .ok nodes := by
  obtain ⟨maker, hmaker, hfile, made, hmade, hread⟩ := h
  obtain rfl : maker = name := hseparate.distinct hmaker hname hfile
  have hscalar := Disk.treeOf_literals hmade
  have hfloats := hseparate.readsBack maker hmaker made hmade
  have hexact := nodesLiterals_of (fun v => Value.exact_of_isScalar) made hscalar hfloats
  rw [SavedTree.eq_of_read?_write hexact hread]
  exact hmade

namespace Template

/-! ## One template by its files alone -/

/-- The outline of a template when another one has been loaded into it. -/
def Outline.load (files : Disk) (name : Text) (o : Outline) : Outline :=
  match Views.checkName name, files.textOf name with
  | .error _, _ => o
  | .ok (), .ok _ => ⟨name, o.vars, true⟩
  | .ok (), .error _ => ⟨name, o.vars, false⟩

/-- The page of a template. -/
def Outline.page (files : Disk) (constants : Constants) (o : Outline) : Except Fault Text :=
  if o.loaded then
    (files.treeOf o.name).bind fun nodes => Node.render nodes o.vars.fields constants
  else .error (.templateNotFound o.name)

variable {files : Disk} {opened : Set Text} {t : Template}

/-- What loading a template says, and what it leads to. -/
theorem Loads.outline_eq (hseparate : Views.Separate files opened) {name : Text}
    (hname : name ∈ opened) {result : Except Fault Unit} {after : Template}
    (h : Loads files opened t name result after) :
    result = (files.textOf name).map (fun _ => ()) ∧
      after.outline = t.outline.load files name := by
  cases h with
  | refused fault hcheck =>
      have htext : files.textOf name = .error fault := by simp only [Disk.textOf, hcheck]
      constructor
      · rw [htext]
        rfl
      · simp only [Outline.load, hcheck]
  | missing hcheck htext =>
      constructor
      · rw [htext]
        rfl
      · simp only [Outline.load, hcheck, htext]
        rfl
  | source hcheck text htext =>
      constructor
      · rw [htext]
        rfl
      · simp only [Outline.load, hcheck, htext]
        rfl
  | saved hcheck nodes hsaved =>
      obtain ⟨text, htext⟩ := Disk.textOf_of_treeOf (hsaved.treeOf_eq hseparate hname)
      constructor
      · rw [htext]
        rfl
      · simp only [Outline.load, hcheck, htext]
        rfl

/-- What the page of a template is rendered from. -/
theorem Parses.page_eq (hseparate : Views.Separate files opened) (ht : t.Stands files opened)
    {parsed : Except Fault Template} (h : Parses files t parsed) (constants : Constants) :
    (parsed.bind fun after => after.render constants) = t.outline.page files constants := by
  cases h with
  | kept nodes htree =>
      obtain ⟨hloaded, hmade⟩ := ht.tree nodes htree
      have hnodes : files.treeOf t.name = .ok nodes := by
        rcases hmade with hown | hsaved
        · exact hown
        · exact hsaved.treeOf_eq hseparate (ht.name_mem hloaded)
      have hpage : t.outline.page files constants =
          Node.render nodes t.vars.fields constants := by
        simp only [Outline.page, Template.outline, hloaded, hnodes, if_true, Except.bind]
      rw [hpage, Except.bind, render, htree]
  | missing hloaded htree =>
      simp only [Outline.page, Template.outline, hloaded, Bool.false_eq_true, if_false, Except.bind]
  | failed fault hloaded htree hfault =>
      simp only [Outline.page, Template.outline, hloaded, hfault, if_true, Except.bind]
  | made nodes hloaded htree hnodes =>
      simp only [Outline.page, Template.outline, hloaded, hnodes, if_true, Except.bind, render]

end Template

namespace Desk

/-! ## A desk by its files alone -/

/-- What a desk amounts to by the files alone: the constants, and the outlines of its
templates. -/
structure Sheet where
  /-- The constants of all templates. -/
  constants : Constants
  /-- The outlines. -/
  slots : Nat → Template.Outline

/-- The sheet of a desk. -/
def sheet (d : Desk) : Sheet := ⟨d.views.constants, fun slot => (d.slots slot).outline⟩

namespace Sheet

/-- The sheet with an outline put into a slot. -/
def put (sh : Sheet) (slot : Nat) (o : Template.Outline) : Sheet :=
  { sh with slots := Function.update sh.slots slot o }

/-- One step by the files alone. -/
def step (files : Disk) (sh : Sheet) : Step → Answer × Sheet
  | .openAt slot name =>
    match files.textOf name with
    | .ok _ => (.loaded (.ok ()), sh.put slot ⟨name, {}, true⟩)
    | .error fault => (.loaded (.error fault), sh)
  | .load slot name =>
    (.loaded ((files.textOf name).map fun _ => ()), sh.put slot ((sh.slots slot).load files name))
  | .set slot name value =>
    let o := sh.slots slot
    (.nothing, sh.put slot { o with vars := o.vars.set name value })
  | .addRow slot path row =>
    let o := sh.slots slot
    match o.vars.addRow? path row with
    | some vars => (.row true, sh.put slot { o with vars })
    | none => (.row false, sh)
  | .setOverwrite slot overwrite =>
    let o := sh.slots slot
    (.nothing, sh.put slot { o with vars := { o.vars with overwrite } })
  | .compile slot => (.page ((sh.slots slot).page files sh.constants), sh)
  | .renew _ capacity constants =>
    (.nothing, if capacity = 0 then sh else { sh with constants })
  | .wait _ => (.nothing, sh)

/-- The answers of some steps in order. -/
def answers (files : Disk) : Sheet → List Step → List Answer
  | _, [] => []
  | sh, s :: rest => (sh.step files s).1 :: answers files (sh.step files s).2 rest

end Sheet

/-- The sheet of a desk with a template put into a slot. -/
theorem sheet_put (d : Desk) (slot : Nat) (t : Template) :
    (d.put slot t).sheet = d.sheet.put slot t.outline := by
  unfold sheet Sheet.put
  congr 1
  funext other
  rw [put_slots, Function.update_apply]
  by_cases hother : other = slot
  · rw [if_pos hother, if_pos hother]
  · rw [if_neg hother, if_neg hother]

/-- Putting back what is there. -/
theorem Sheet.put_self (sh : Sheet) (slot : Nat) : sh.put slot (sh.slots slot) = sh := by
  unfold Sheet.put
  rw [Function.update_eq_self]

theorem sheet_views {d : Desk} {views : Views} (h : views.constants = d.views.constants) :
    sheet { d with views } = d.sheet := by
  unfold sheet
  rw [h]

variable {files : Disk} {names opened : Set Text} {d : Desk}

/-- **A step of a desk answers as the files alone do**, and leaves a desk with the same sheet. -/
theorem step_sheet (hnames : Views.Undisturbed files names) (hsub : opened ⊆ names)
    (hseparate : Views.Separate files opened) (hd : d.Sound files opened) {s : Step}
    (hs : ∀ name, s.opens = some name → name ∈ opened) :
    (d.step s).1 = (d.sheet.step files s).1 ∧ (d.step s).2.sheet = (d.sheet.step files s).2 := by
  cases s with
  | openAt slot name =>
      have hname := hs name rfl
      obtain ⟨hloads, -, hkeeps⟩ :=
        Template.load_loads (t := {}) hnames hd.views (hsub hname)
      obtain ⟨hresult, houtline⟩ := hloads.outline_eq hseparate hname
      simp only [step, Sheet.step]
      rcases hload : Template.load {} name d.views with ⟨result, t, views⟩
      rw [hload] at hkeeps hresult houtline
      dsimp only at hkeeps hresult houtline
      cases htext : files.textOf name with
      | error fault =>
          rw [htext] at hresult
          subst hresult
          exact ⟨rfl, sheet_views hkeeps.constants⟩
      | ok text =>
          -- a name that is refused has no text
          have hcheck : Views.checkName name = .ok () := by
            cases hcheck : Views.checkName name with
            | ok _ => rfl
            | error fault =>
                simp only [Disk.textOf, hcheck] at htext
                contradiction
          rw [htext] at hresult
          subst hresult
          refine ⟨rfl, ?_⟩
          have hfound : t.outline = ⟨name, {}, true⟩ := by
            rw [houtline]
            simp only [Template.Outline.load, hcheck, htext]
            rfl
          show (Desk.put { d with views } slot t).sheet = d.sheet.put slot ⟨name, {}, true⟩
          rw [sheet_put, hfound, sheet_views hkeeps.constants]
  | load slot name =>
      have hname := hs name rfl
      obtain ⟨hloads, -, hkeeps⟩ :=
        Template.load_loads (t := d.slots slot) hnames hd.views (hsub hname)
      obtain ⟨hresult, houtline⟩ := hloads.outline_eq hseparate hname
      simp only [step, Sheet.step]
      rw [hresult, sheet_put, houtline, sheet_views hkeeps.constants]
      exact ⟨rfl, rfl⟩
  | set slot name value => exact ⟨rfl, sheet_put d slot _⟩
  | addRow slot path row =>
      simp only [step, Sheet.step]
      rw [sheet_put]
      have hvars : (d.sheet.slots slot).vars = (d.slots slot).vars := rfl
      rw [hvars]
      unfold Template.addRow
      cases (d.slots slot).vars.addRow? path row with
      | some vars => exact ⟨rfl, rfl⟩
      | none => exact ⟨rfl, d.sheet.put_self slot⟩
  | setOverwrite slot overwrite => exact ⟨rfl, sheet_put d slot _⟩
  | compile slot =>
      obtain ⟨⟨parsed, hparsed, hpage⟩, -, houtline, -, hkeeps⟩ :=
        Template.compile_parses hnames hsub hd.views (hd.slots slot)
      simp only [step, Sheet.step]
      rw [hpage, hparsed.page_eq hseparate (hd.slots slot), sheet_put, houtline,
        sheet_views hkeeps.constants]
      exact ⟨rfl, d.sheet.put_self slot⟩
  | renew maxAge capacity constants =>
      simp only [step, Sheet.step]
      by_cases hcapacity : capacity = 0
      · subst hcapacity
        rw [Views.make_zero]
        exact ⟨rfl, rfl⟩
      · rw [Views.make_eq hcapacity, if_neg hcapacity]
        exact ⟨rfl, rfl⟩
  | wait now => exact ⟨rfl, rfl⟩

/-- **A desk answers as the files alone do**, in all its steps. -/
theorem answers_eq_sheet (hnames : Views.Undisturbed files names) (hsub : opened ⊆ names)
    (hseparate : Views.Separate files opened) {steps : List Step} (hd : d.Sound files opened)
    (hsteps : Opens opened steps) : d.answers steps = d.sheet.answers files steps := by
  induction steps generalizing d with
  | nil => rfl
  | cons s rest ih =>
      have hs := hsteps s List.mem_cons_self
      obtain ⟨hanswer, hsheet⟩ := step_sheet hnames hsub hseparate hd hs
      have hrest : Opens opened rest := fun other hother =>
        hsteps other (List.mem_cons_of_mem _ hother)
      rw [answers, Sheet.answers, hanswer, ← hsheet,
        ih (step_sound hnames hsub hd hs) hrest]

/-! ## Nothing kept -/

/-- The desk over new views that keep no trees, with nothing in memory and nothing saved. -/
def plain (files : Disk) (d : Desk) : Desk :=
  { d with
    views :=
      { disk := files, now := d.views.now, recent := { capacity := 1 }, maxAge := 0,
        constants := d.views.constants } }

/-- The answers of some steps in order when nothing is kept from one to the next. -/
def plainAnswers (files : Disk) : Desk → List Step → List Answer
  | _, [] => []
  | d, s :: rest =>
    ((d.plain files).step s).1 :: plainAnswers files ((d.plain files).step s).2 rest

/-- Without anything kept, a desk answers as the files alone do too. -/
theorem plainAnswers_eq_sheet (hnames : Views.Undisturbed files names) (hsub : opened ⊆ names)
    (hseparate : Views.Separate files opened)
    (hempty : ∀ file, files.entry? [Views.savedFolder, file] = none) {steps : List Step}
    (hd : ∀ slot, (d.slots slot).Stands files opened) (hsteps : Opens opened steps) :
    d.plainAnswers files steps = d.sheet.answers files steps := by
  induction steps generalizing d with
  | nil => rfl
  | cons s rest ih =>
      have hs := hsteps s List.mem_cons_self
      have hplain : (d.plain files).Sound files opened :=
        ⟨Views.Faithful.of_files hnames hempty rfl rfl, hd⟩
      obtain ⟨hanswer, hsheet⟩ := step_sheet hnames hsub hseparate hplain hs
      have hrest : Opens opened rest := fun other hother =>
        hsteps other (List.mem_cons_of_mem _ hother)
      rw [plainAnswers, Sheet.answers, hanswer,
        ih (step_sound hnames hsub hplain hs).slots hrest, hsheet]
      rfl

/-- **Caches do not change what is answered.** On files that do not change, with no saved trees
to start with, every step answers what it answers when nothing is kept in memory and no tree is
saved or used. -/
theorem answers_eq_plainAnswers (hnames : Views.Undisturbed files opened)
    (hseparate : Views.Separate files opened)
    (hempty : ∀ file, files.entry? [Views.savedFolder, file] = none) {now maxAge : Int}
    {capacity : Nat} {constants : Constants} {views : Views}
    (hviews : Views.make files now maxAge capacity constants = .ok views) {steps : List Step}
    (hsteps : Opens opened steps) :
    answers { views } steps = plainAnswers files { views } steps := by
  have hsound : Sound files opened { views } := sound_of_make hnames hempty hviews
  rw [answers_eq_sheet hnames subset_rfl hseparate hsound hsteps,
    plainAnswers_eq_sheet hnames subset_rfl hseparate hempty hsound.slots hsteps]

/-- A page that compares with a floating-point number and includes another one. -/
def sampleFiles : Disk :=
  { entries :=
      [(["page.html"], .file (Utf8.encode ("\x7bIF: COUNT gt 1.5\x7dmany\x7bELSE:\x7dfew" ++
          "\x7b/IF\x7d\x7bINCLUDE: end.html\x7d")) 10),
        (["end.html"], .file (Utf8.encode " items") 20)] }

/-- The names of both. -/
def sampleNames : List Text := ["page.html", "end.html"]

/-- The page is made from its file and then, by new views, from its saved tree. -/
def sampleSteps : List Step :=
  [.openAt 0 "page.html", .set 0 "COUNT" (.int 2), .compile 0, .renew 300 1 [],
    .openAt 1 "page.html", .compile 1]

/-- Two pages, made with and without a saved tree. -/
theorem answers_eq_plainAnswers_sample :
    ∃ views, Views.make sampleFiles 100 300 2 [] = .ok views ∧
      answers { views } sampleSteps = plainAnswers sampleFiles { views } sampleSteps ∧
      answers { views } sampleSteps =
        [.loaded (.ok ()), .nothing, .page (.ok "many items"), .nothing, .loaded (.ok ()),
          .page (.ok "few items")] := by
  have hnames : Views.Undisturbed sampleFiles {name | name ∈ sampleNames} :=
    Views.undisturbed_of_list (by decide +kernel) (by decide +kernel) (by decide +kernel)
  have hdistinct : ∀ name ∈ sampleNames, ∀ other ∈ sampleNames,
      Views.savedFile name = Views.savedFile other → name = other := by decide +kernel
  have hreads : ∀ name ∈ sampleNames, ∀ nodes ∈ (sampleFiles.treeOf name).toOption,
      NodesLiterals Value.ReadsBack nodes := by decide +kernel
  have hseparate : Views.Separate sampleFiles {name | name ∈ sampleNames} := by
    constructor
    · intro name hname other hother
      exact hdistinct name hname other hother
    · intro name hname nodes hnodes
      apply hreads name hname nodes
      rw [hnodes]
      rfl
  have hsteps : ∀ s ∈ sampleSteps, ∀ name ∈ s.opens, name ∈ sampleNames := by decide +kernel
  have hviews := Views.make_eq (show 2 ≠ 0 by decide) sampleFiles 100 300 []
  refine ⟨_, hviews, ?_, by decide +kernel⟩
  exact answers_eq_plainAnswers hnames hseparate (fun _ => rfl) hviews hsteps

end Desk
end PageServer
