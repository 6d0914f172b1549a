/-
# Visits

A visit opens a template, gives it its variables and makes its page at once.
Over views whose memory agrees with their files, a template that is opened has
the text of its file or the tree that is saved for it. So the page is the one
that the files alone give, unless an old tree was found.

* `Template.Opens`, `Template.load_opens`: what is opened
* `Views.MadeFrom`: a tree made from the texts on a disk
* `Views.visit`, `Views.upkeeps_visit`, `Views.remembers_visit`: a visit and what it leaves behind
* `Views.visit_eq_page`: the page is that of the files
-/
import PageServer.Proofs.Views.Upkeep

namespace PageServer

/-! ## Trees of files with the same texts -/

/-- Names that are closed under inclusion stay so while their texts are the same. -/
theorem IncludeClosed.congr {names : Set Text} {textOf textOf' : Text → Except Fault Text}
    (h : IncludeClosed names textOf) (hsame : ∀ name ∈ names, textOf' name = textOf name) :
    IncludeClosed names textOf' := by
  intro name hname source hsource
  rw [hsame name hname] at hsource
  exact h name hname source hsource

/-- The tree of a template depends on its text and the texts of what it includes. -/
theorem Disk.treeOf_congr {disk other : Disk} {names : Set Text}
    (hclosed : IncludeClosed names disk.textOf)
    (hsame : ∀ name ∈ names, other.textOf name = disk.textOf name) {name : Text}
    (hname : name ∈ names) : other.treeOf name = disk.treeOf name := by
  unfold treeOf
  rw [hsame name hname]
  cases hsource : disk.textOf name with
  | error fault => rfl
  | ok source => exact Node.parseWith_congr hclosed hsame hname hsource

/-! ## Opening a template -/

namespace Template

open Views (IsOutside Upkeeps)

/-- What opening a template leads to by its file: a fault if it has no text, else its text or a
tree that is saved. -/
inductive Opens (t : Template) (name : Text) (v : Views) : Except Fault Unit → Template → Prop
  /-- It has no text, and nothing is loaded that was not before. -/
  | missing (fault : Fault) (h : v.disk.textOf name = .error fault) (after : Template)
    (hafter : after = t ∨ after.loaded = false) :
    Opens t name v (.error fault) after
  /-- It has its text. -/
  | source (text : Text) (h : v.disk.textOf name = .ok text) :
    Opens t name v (.ok ())
      { t.emptied name with source := text, loaded := true, fromViews := true }
  /-- It has a tree that is saved. -/
  | saved (nodes : List Node) (h : ((v.recalled name).2.savedTree name).1 = some nodes) :
    Opens t name v (.ok ())
      { t.emptied name with tree := some nodes, loaded := true, fromViews := true }

/-- **A template is opened by its file or by its saved tree**, if what is in memory under its name
agrees with the file. -/
theorem load_opens (t : Template) {name : Text} {v : Views} (hname : IsOutside name)
    (hv : ∀ k ∈ v.recent.kept, k.name = name → k.Agrees v.disk) :
    Opens t name v (t.load name v).1 (t.load name v).2.1 := by
  have hsought : (v.sought name).disk.textOf name = v.disk.textOf name :=
    (Views.upkeeps_sought (P := fun _ => True) v name).textOf_eq hname
  -- looking in memory and for a saved tree does not change the file
  have hfound := load_finds t name v
  generalize t.load name v = result at hfound
  cases hfound with
  | refused fault hcheck =>
      apply Opens.missing fault _ t (.inl rfl)
      simp only [Disk.textOf, hcheck]
  | memory hcheck source hmemory => exact .source source (Views.textOf_of_recalled hv hmemory)
  | saved hcheck nodes htree => exact .saved nodes htree
  | file hcheck source hfile =>
      apply Opens.source
      rw [← hsought, Views.textOf_of_readFile (v.sought name) hcheck, hfile]
  | missing hcheck hfile =>
      apply Opens.missing _ _ _ (.inr rfl)
      rw [← hsought, Views.textOf_of_readFile (v.sought name) hcheck, hfile]

/-- The template with some variables in place of its own. -/
def withVars (t : Template) (vars : Variables) : Template := { t with vars }

/-- A template that has been opened has the name it was opened by. -/
theorem name_of_load {t : Template} {name : Text} {v : Views} (h : (t.load name v).1 = .ok ()) :
    (t.load name v).2.1.name = name := by
  have hfound := load_finds t name v
  generalize t.load name v = result at hfound h
  cases hfound with
  | refused => contradiction
  | memory => rfl
  | saved => rfl
  | file => rfl
  | missing => contradiction

end Template

/-! ## Visits -/

namespace Views

variable {v v' : Views} {name : Text} {vars : Variables} {Q : Kept → Prop}

/-- Opens a template, gives it variables, and makes its page. -/
def visit (v : Views) (name : Text) (vars : Variables) : Except Fault Text × Views :=
  match Action.run (Template.open? name) v with
  | (.error fault, v) => (.error fault, v)
  | (.ok t, v) =>
    let (result, _, v) := (t.withVars vars).compile v
    (result, v)

/-- A visit fails if there is no template, and else makes its page. -/
theorem visit_cases (v : Views) (name : Text) (vars : Variables) :
    (∃ fault, (Template.load {} name v).1 = .error fault ∧
        v.visit name vars = (.error fault, (Template.load {} name v).2.2)) ∨
      (Template.load {} name v).1 = .ok () ∧
        ((v.visit name vars).1 =
            (((Template.load {} name v).2.1.withVars vars).compile
              (Template.load {} name v).2.2).1 ∧
          (v.visit name vars).2 =
            (((Template.load {} name v).2.1.withVars vars).compile
              (Template.load {} name v).2.2).2.2) := by
  unfold visit Template.open?
  rw [Action.run_mk]
  rcases Template.load {} name v with ⟨result, t, after⟩
  cases result with
  | error fault => exact .inl ⟨fault, rfl, rfl⟩
  | ok _ => exact .inr ⟨rfl, rfl, rfl⟩

/-- A tree made from the texts on a disk, if what is included lies outside. -/
def MadeFrom (disk : Disk) (name : Text) (nodes : List Node) : Prop :=
  ∀ names, IncludeClosed names disk.textOf → (∀ other ∈ names, IsOutside other) → name ∈ names →
    disk.treeOf name = .ok nodes

/-- Memory in which the texts from outside agree with a disk. -/
def AgreesOutside (disk : Disk) (k : Kept) : Prop := IsOutside k.name → k.Agrees disk

/-- What is in memory after a template has been opened still agrees with the files. -/
theorem remembers_agrees_load (hv : v.Remembers (AgreesOutside v.disk)) (t : Template)
    (name : Text) : (t.load name v).2.2.Remembers (AgreesOutside v.disk) := by
  have hload := Template.upkeeps_load (P := fun _ => True) t name v
  apply Template.remembers_load hv
  intro content time hstat houtside
  rw [hload.stat?_eq houtside] at hstat
  exact Kept.agrees_of_stat? hstat

/-- **The tree of a template that was opened by its file is that of the files.** -/
theorem run_parse_load (hv : v.Remembers (AgreesOutside v.disk)) {names : Set Text}
    (hclosed : IncludeClosed names v.disk.textOf) (houtside : ∀ other ∈ names, IsOutside other)
    (hname : name ∈ names) {source : Text} (hsource : v.disk.textOf name = .ok source)
    (t : Template) :
    (Action.run (Node.parse Views.load source name) (t.load name v).2.2).1 =
      v.disk.treeOf name := by
  have hload := Template.upkeeps_load (P := fun _ => True) t name v
  have htexts : ∀ other ∈ names, (t.load name v).2.2.disk.textOf other = v.disk.textOf other :=
    fun other hother => hload.textOf_eq (houtside other hother)
  -- what is in memory after loading agrees with the files that were not touched
  have hmemory : (t.load name v).2.2.Remembers fun k =>
      k.name ∈ names → k.Agrees (t.load name v).2.2.disk := by
    intro k hk hkname entry hentry
    have hkoutside := houtside k.name hkname
    rw [hload.stat?_eq hkoutside] at hentry
    exact remembers_agrees_load hv t name k hk hkoutside entry hentry
  rw [← Disk.treeOf_congr hclosed htexts hname]
  apply run_parse (hclosed.congr htexts) hmemory hname
  rw [htexts name hname]
  exact hsource

/-- **A visit touches nothing but the saved file of its template**, where it saves the tree that
the files give. -/
theorem upkeeps_visit (hv : v.Remembers (AgreesOutside v.disk)) (name : Text) (vars : Variables) :
    Upkeeps name (MadeFrom v.disk name) v (v.visit name vars).2 := by
  have hload := Template.upkeeps_load (P := MadeFrom v.disk name) {} name v
  rcases v.visit_cases name vars with ⟨fault, -, hvisit⟩ | ⟨hresult, -, hvisit⟩
  · rw [hvisit]
    exact hload
  · rw [hvisit]
    apply hload.trans
    have hopened : ((Template.load {} name v).2.1.withVars vars).name = name :=
      Template.name_of_load hresult
    have hcompile := Template.upkeeps_compile (P := MadeFrom v.disk name)
      ((Template.load {} name v).2.1.withVars vars) (Template.load {} name v).2.2
    rw [hopened] at hcompile
    apply hcompile
    -- the tree that is saved is made from the text that was opened
    intro nodes htree _ hnodes names hclosed houtside hname
    have hopens := Template.load_opens {} (houtside name hname) fun k hk hkname =>
      hv k hk (hkname ▸ houtside name hname)
    have hparse : ∀ text, v.disk.textOf name = .ok text →
        (Action.run (Node.parse Views.load text name) (Template.load {} name v).2.2).1 =
          v.disk.treeOf name :=
      fun text htext => run_parse_load hv hclosed houtside hname htext {}
    rw [hresult] at hopens
    generalize (Template.load {} name v).2.1 = t at hopens htree hnodes
    cases hopens with
    | source text htext =>
        rw [← hparse text htext]
        exact hnodes
    | saved nodes hsaved => contradiction

/-- What a visit adds to the memory are contents of files. -/
theorem remembers_visit (hv : v.Remembers Q)
    (hfile : ∀ other content time,
      (Template.load {} name v).2.2.disk.stat? other = some (.file content time) →
        Q ⟨other, content, time⟩) (vars : Variables) : (v.visit name vars).2.Remembers Q := by
  have hload := Template.remembers_load (t := {}) hv (hfile name)
  rcases v.visit_cases name vars with ⟨fault, -, hvisit⟩ | ⟨hresult, -, hvisit⟩
  · rw [hvisit]
    exact hload
  · rw [hvisit]
    exact Template.remembers_compile hload hfile _

/-! ## The page by the files -/

/-- The page of a template by its files alone. -/
def page (disk : Disk) (constants : Constants) (name : Text) (vars : Variables) :
    Except Fault Text :=
  (disk.treeOf name).bind fun nodes => Node.render nodes vars.fields constants

/-- The page of a template whose tree is there. -/
theorem compile_of_tree {t : Template} {nodes : List Node} (h : t.tree = some nodes) (v : Views) :
    (t.compile v).1 = Node.render nodes t.vars.fields v.constants := by
  rw [(Template.compile_eq t v).1, Template.run_parse_of_tree h]
  show t.render v.constants = _
  simp only [Template.render, h]

/-- The page of a template that has its source. -/
theorem compile_of_source {t : Template} (htree : t.tree = none) (hloaded : t.loaded = true)
    (v : Views) :
    (t.compile v).1 =
      ((Action.run (Node.parse Views.load t.source t.name) v).1).bind fun nodes =>
        Node.render nodes t.vars.fields v.constants := by
  have hrests := v.rests_parse t.source t.name
  have hkeeps := (Template.upkeeps_parse (P := fun _ => True) t v fun _ _ _ _ => trivial).constants
  rw [(Template.compile_eq t v).1, hkeeps, Template.run_parse_of_source htree hloaded]
  rcases Action.run (Node.parse Views.load t.source t.name) v with ⟨result, after⟩
  cases result with
  | error fault => rfl
  | ok nodes => rfl

/-- **A visit makes the page that the files give**, unless a tree is found saved that is not that
of the files. -/
theorem visit_eq_page (hv : v.Remembers (AgreesOutside v.disk)) {names : Set Text}
    (hclosed : IncludeClosed names v.disk.textOf) (houtside : ∀ other ∈ names, IsOutside other)
    (hname : name ∈ names)
    (hsaved : ∀ nodes, ((v.recalled name).2.savedTree name).1 = some nodes →
      v.disk.treeOf name = .ok nodes) (vars : Variables) :
    (v.visit name vars).1 = page v.disk v.constants name vars := by
  have hopens := Template.load_opens {} (houtside name hname) fun k hk hkname =>
    hv k hk (hkname ▸ houtside name hname)
  have hparse : ∀ text, v.disk.textOf name = .ok text →
      (Action.run (Node.parse Views.load text name) (Template.load {} name v).2.2).1 =
        v.disk.treeOf name :=
    fun text htext => run_parse_load hv hclosed houtside hname htext {}
  have hconstants := (Template.upkeeps_load (P := fun _ => True) {} name v).constants
  rcases v.visit_cases name vars with ⟨fault, hresult, hvisit⟩ | ⟨hresult, hvisit, -⟩
  · rw [hresult] at hopens
    rw [hvisit]
    generalize (Template.load {} name v).2.1 = t at hopens
    cases hopens with
    | missing _ hfault => simp only [page, Disk.treeOf, hfault, Except.bind]
  · rw [hresult] at hopens
    rw [hvisit, ← hconstants]
    generalize (Template.load {} name v).2.1 = t at hopens ⊢
    cases hopens with
    | source text htext =>
        rw [compile_of_source rfl rfl]
        dsimp only [Template.withVars, Template.emptied]
        rw [hparse text htext]
        rfl
    | saved nodes hnodes =>
        rw [compile_of_tree rfl, page, hsaved nodes hnodes]
        rfl

/-- Views with both caches off: nothing in memory, and no trees saved or used. -/
def uncached (v : Views) : Views := { v with recent := { capacity := 1 }, maxAge := 0 }

/-- Without caches a visit makes the page that the files give. -/
theorem visit_uncached {names : Set Text} (hclosed : IncludeClosed names v.disk.textOf)
    (houtside : ∀ other ∈ names, IsOutside other) (hname : name ∈ names) (vars : Variables) :
    (v.uncached.visit name vars).1 = page v.disk v.constants name vars := by
  apply visit_eq_page (v := v.uncached) (fun k hk => by contradiction) hclosed houtside hname
  intro nodes hnodes
  -- no tree is used
  have hmaxAge := (rests_recalled v.uncached name).maxAge
  have hsaves : ((v.uncached.recalled name).2.saves) = false := by
    rw [saves, hmaxAge]
    rfl
  rw [savedTree, hsaves] at hnodes
  contradiction

end Views
end PageServer
