/-
# Templates from views that agree with their files

What loading a template leads to, and what making its page does, by the files
alone. The only trace of the caches is the tree that may have been saved for a
template with the same saved file.

* `Template.Stands`: a template with the text or the tree that the files give it
* `Template.Loads`, `Template.load_loads`: the four ways in which loading ends
* `Template.Parses`, `Template.parse_parses`: the four ways in which its tree is found
* `Template.compile_parses`: the page is rendered from that tree
-/
import PageServer.Proofs.Views.Faithful
import PageServer.Views.Template

namespace PageServer.Template

open Views (Undisturbed SavedFor)

/-- A template that was loaded by one of some names: its source is the text of its file, and its
tree that of its file or one that was saved for it. -/
structure Stands (files : Disk) (opened : Set Text) (t : Template) : Prop where
  name_mem : t.loaded = true → t.name ∈ opened
  source : t.loaded = true → t.tree = none → files.textOf t.name = .ok t.source
  tree : ∀ nodes, t.tree = some nodes →
    t.loaded = true ∧ (files.treeOf t.name = .ok nodes ∨ SavedFor files opened t.name nodes)

/-- How loading a template ends: what is said of it, and the template afterwards. -/
inductive Loads (files : Disk) (opened : Set Text) (t : Template) (name : Text) :
    Except Fault Unit → Template → Prop
  /-- The name leads outside. -/
  | refused (fault : Fault) (h : Views.checkName name = .error fault) :
    Loads files opened t name (.error fault) t
  /-- There is no file and no saved tree. -/
  | missing (hcheck : Views.checkName name = .ok ())
    (h : files.textOf name = .error (.templateNotFound name)) :
    Loads files opened t name (.error (.templateNotFound name)) (t.emptied name)
  /-- The text is that of the file. -/
  | source (hcheck : Views.checkName name = .ok ()) (text : Text)
    (h : files.textOf name = .ok text) :
    Loads files opened t name (.ok ())
      { t.emptied name with source := text, loaded := true, fromViews := true }
  /-- The tree was saved. -/
  | saved (hcheck : Views.checkName name = .ok ()) (nodes : List Node)
    (h : SavedFor files opened name nodes) :
    Loads files opened t name (.ok ())
      { t.emptied name with tree := some nodes, loaded := true, fromViews := true }

/-- How the tree of a template is found: the template with its tree, or a fault. -/
inductive Parses (files : Disk) (t : Template) : Except Fault Template → Prop
  /-- It is there. -/
  | kept (nodes : List Node) (h : t.tree = some nodes) : Parses files t (.ok t)
  /-- Nothing was loaded. -/
  | missing (h : t.loaded = false) (htree : t.tree = none) :
    Parses files t (.error (.templateNotFound t.name))
  /-- The text has no tree. -/
  | failed (fault : Fault) (h : t.loaded = true) (htree : t.tree = none)
    (hfault : files.treeOf t.name = .error fault) : Parses files t (.error fault)
  /-- It is made of the text. -/
  | made (nodes : List Node) (h : t.loaded = true) (htree : t.tree = none)
    (hnodes : files.treeOf t.name = .ok nodes) : Parses files t (.ok { t with tree := some nodes })

variable {files : Disk} {names opened : Set Text} {v : Views} {t : Template} {name : Text}

/-! ## Loading -/

/-- A template that has been loaded stands. -/
theorem Loads.stands {result : Except Fault Unit} {after : Template}
    (h : Loads files opened t name result after) (ht : t.Stands files opened)
    (hname : name ∈ opened) : after.Stands files opened := by
  cases h with
  | refused fault hcheck => exact ht
  | missing hcheck htext =>
      constructor
      · intro hloaded
        contradiction
      · intro hloaded
        contradiction
      · intro nodes htree
        contradiction
  | source hcheck text htext =>
      constructor
      · intro _
        exact hname
      · intro _ _
        exact htext
      · intro nodes htree
        contradiction
  | saved hcheck nodes hsaved =>
      constructor
      · intro _
        exact hname
      · intro _ htree
        contradiction
      · intro found htree
        obtain rfl := Option.some.inj htree
        exact ⟨rfl, .inr hsaved⟩

/-- **Loading a template from views that agree with their files.** -/
theorem load_loads (hnames : Undisturbed files names) (hv : v.Faithful files opened)
    (hname : name ∈ names) :
    Loads files opened t name (t.load name v).1 (t.load name v).2.1 ∧
      (t.load name v).2.2.Faithful files opened ∧ v.Keeps (t.load name v).2.2 := by
  unfold load
  cases hcheck : Views.checkName name with
  | error fault => exact ⟨.refused fault hcheck, hv, .refl v⟩
  | ok _ =>
      -- the text from memory
      obtain ⟨hrecalled, htext⟩ := hv.recalled name
      have hkeeps := Views.keeps_recalled v name
      dsimp only
      rcases hfound : v.recalled name with ⟨found, v₁⟩
      rw [hfound] at hrecalled htext hkeeps
      dsimp only at hrecalled htext hkeeps
      cases found with
      | some source => exact ⟨.source hcheck source (htext source rfl), hrecalled, hkeeps⟩
      | none =>
          -- the tree from the disk
          obtain ⟨hsaved, htree⟩ := hrecalled.savedTree name
          have hkeeps₁ := Views.keeps_savedTree v₁ name
          dsimp only
          rcases hfoundTree : v₁.savedTree name with ⟨foundTree, v₂⟩
          rw [hfoundTree] at hsaved htree hkeeps₁
          dsimp only at hsaved htree hkeeps₁
          cases foundTree with
          | some nodes =>
              exact ⟨.saved hcheck nodes (htree nodes rfl), hsaved, hkeeps.trans hkeeps₁⟩
          | none =>
              -- the text from the disk
              obtain ⟨hread, hfile⟩ := hsaved.readFile hnames hname hcheck
              have hkeeps₂ := (hkeeps.trans hkeeps₁).trans (Views.keeps_readFile v₂ name)
              dsimp only
              rcases hfoundFile : v₂.readFile name with ⟨foundFile, v₃⟩
              rw [hfoundFile] at hread hfile hkeeps₂
              dsimp only at hread hfile hkeeps₂
              rcases hfile with ⟨source, rfl, hsource⟩ | ⟨rfl, hnone⟩
              · exact ⟨.source hcheck source hsource, hread, hkeeps₂⟩
              · exact ⟨.missing hcheck hnone, hread, hkeeps₂⟩

/-! ## Making the page -/

/-- A template stands when its tree has been found. -/
theorem Parses.stands {after : Template} (h : Parses files t (.ok after))
    (ht : t.Stands files opened) : after.Stands files opened := by
  cases h with
  | kept nodes htree => exact ht
  | made nodes hloaded htree hnodes =>
      constructor
      · exact ht.name_mem
      · intro _ hnone
        contradiction
      · intro found hfound
        obtain rfl := Option.some.inj hfound
        exact ⟨hloaded, .inl hnodes⟩

/-- Saving the tree of a template, or leaving it, keeps the views in agreement with the files. -/
theorem faithful_saveTree (hv : v.Faithful files opened) (hname : t.name ∈ opened)
    {nodes : List Node} (hnodes : files.treeOf t.name = .ok nodes) :
    (t.saveTree nodes v).Faithful files opened ∧ v.Keeps (t.saveTree nodes v) := by
  unfold saveTree
  split
  · exact ⟨hv.save hname hnodes, Views.keeps_save v t.name nodes⟩
  · exact ⟨hv, .refl v⟩

/-- **Finding the tree of a template with views that agree with their files.** -/
theorem parse_parses (hnames : Undisturbed files names) (hsub : opened ⊆ names)
    (hv : v.Faithful files opened) (ht : t.Stands files opened) :
    Parses files t (Action.run t.parse v).1 ∧ (Action.run t.parse v).2.Faithful files opened ∧
      v.Keeps (Action.run t.parse v).2 := by
  unfold parse
  cases htree : t.tree with
  | some nodes => exact ⟨.kept nodes htree, hv, .refl v⟩
  | none =>
      dsimp only
      by_cases hloaded : t.loaded = true
      · have hname := ht.name_mem hloaded
        have hsource := ht.source hloaded htree
        have htreeOf : files.treeOf t.name = Node.parseWith files.textOf t.source t.name := by
          simp only [Disk.treeOf, hsource]
        -- the tree does not depend on what is in memory
        have hload : Loader.Serves (fun w => w.Faithful files opened ∧ v.Keeps w) names
            files.textOf Views.load := Views.Faithful.load hnames v
        have hgives := Node.parse_gives hload hnames.closed (hsub hname) hsource
        obtain ⟨hresult, hafter, hkeeps⟩ := hgives v ⟨hv, .refl v⟩
        rw [← htreeOf] at hresult
        rw [if_pos hloaded, Action.run_bind]
        rcases hrun : Action.run (Node.parse Views.load t.source t.name) v with ⟨result, after⟩
        rw [hrun] at hresult hafter hkeeps
        dsimp only at hresult hafter hkeeps
        cases result with
        | error fault => exact ⟨.failed fault hloaded htree hresult.symm, hafter, hkeeps⟩
        | ok nodes =>
            obtain ⟨hsaved, hkeepsSaved⟩ := faithful_saveTree hafter hname hresult.symm
            exact ⟨.made nodes hloaded htree hresult.symm, hsaved, hkeeps.trans hkeepsSaved⟩
      · rw [if_neg hloaded]
        exact ⟨.missing (Bool.eq_false_iff.mpr hloaded) htree, hv, .refl v⟩

/-- What does not depend on where a template came from: its name, its variables, and whether
there is one. -/
structure Outline where
  /-- The name. -/
  name : Text := []
  /-- The variables of the page. -/
  vars : Variables := {}
  /-- Whether a template of that name was found. -/
  loaded : Bool := false

/-- The outline of a template. -/
def outline (t : Template) : Outline := ⟨t.name, t.vars, t.loaded⟩

theorem Parses.outline {after : Template} (h : Parses files t (.ok after)) :
    after.outline = t.outline := by
  cases h <;> rfl

/-- **Making the page of a template with views that agree with their files.** -/
theorem compile_parses (hnames : Undisturbed files names) (hsub : opened ⊆ names)
    (hv : v.Faithful files opened) (ht : t.Stands files opened) :
    (∃ parsed, Parses files t parsed ∧
        (t.compile v).1 = parsed.bind fun after => after.render v.constants) ∧
      (t.compile v).2.1.Stands files opened ∧ (t.compile v).2.1.outline = t.outline ∧
        (t.compile v).2.2.Faithful files opened ∧ v.Keeps (t.compile v).2.2 := by
  obtain ⟨hparsed, hafter, hkeeps⟩ := parse_parses hnames hsub hv ht
  unfold compile
  rcases hrun : Action.run t.parse v with ⟨parsed, after⟩
  rw [hrun] at hparsed hafter hkeeps
  dsimp only at hparsed hafter hkeeps
  cases parsed with
  | error fault => exact ⟨⟨_, hparsed, rfl⟩, ht, rfl, hafter, hkeeps⟩
  | ok t' =>
      have hstands := hparsed.stands ht
      have houtline := hparsed.outline
      dsimp only
      cases hrender : t'.render after.constants with
      | error fault =>
          refine ⟨⟨_, hparsed, ?_⟩, hstands, houtline, hafter, hkeeps⟩
          rw [← hkeeps.constants]
          exact hrender.symm
      | ok output =>
          refine ⟨⟨_, hparsed, ?_⟩, ?_, houtline, hafter, hkeeps⟩
          · rw [← hkeeps.constants]
            exact hrender.symm
          · exact ⟨hstands.name_mem, hstands.source, hstands.tree⟩

end PageServer.Template
