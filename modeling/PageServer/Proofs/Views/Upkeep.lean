/-
# What the views do to the disk

On behalf of a template the views touch two places: they make the folder of the
saved trees, and they write or remove the saved file of this template. Loading a
template may remove it, making its page may write it, and nothing else changes.

* `Views.IsOutside`: names that lead outside the folder of the saved trees
* `Views.Upkeep`: what may happen under one path
* `Views.Upkeeps.saved_cases`: a saved file afterwards stood there before or is new
* `Views.upkeeps_savedTree`, `Views.upkeeps_save`: looking for a saved tree, saving one
* `Views.entry?_of_make`: making views does no more than make that folder
* `Template.Finds`, `Template.load_finds`: where a template is found
* `Template.run_parse_of_source`, `Template.compile_eq`: making its tree and its page
* `Template.upkeeps_load`, `Template.upkeeps_compile`: both leave all else as it was
-/
import PageServer.Proofs.Views.Memory
import PageServer.Views.Template

namespace PageServer

namespace Views

variable {v v' v'' : Views} {name : Text} {P : List Node → Prop}

/-! ## Changes on behalf of a template -/

/-- A name that leads outside the folder of the saved trees. -/
def IsOutside (name : Text) : Prop := ∀ path, Disk.pathOf? name = some path → ¬ IsSaved path

/-- For a given name this can be computed. -/
theorem isOutside_iff {name : Text} :
    IsOutside name ↔ ∀ path ∈ Disk.pathOf? name, path.head? ≠ some savedFolder := Iff.rfl

instance decidableIsOutside : DecidablePred IsOutside := fun _ =>
  decidable_of_iff _ isOutside_iff.symm

/-- What stands under a path before and after the views have worked for a template at some time.
The trees that they save have the property `P`. -/
inductive Upkeep (name : Text) (now : Int) (P : List Node → Prop) :
    Path → Option Entry → Option Entry → Prop
  /-- Nothing happens. -/
  | same (path : Path) (entry : Option Entry) : Upkeep name now P path entry entry
  /-- The folder of the saved trees is made. -/
  | folder : Upkeep name now P [savedFolder] none (some (.folder now))
  /-- The saved file of the template is removed. -/
  | gone (entry : Option Entry) : Upkeep name now P (savedPath name) entry none
  /-- The saved file of the template is written. -/
  | saved (entry : Option Entry) (nodes : List Node) (h : P nodes) :
    Upkeep name now P (savedPath name) entry
      (some (.file (Utf8.encode (SavedTree.write nodes)) now))

theorem Upkeep.trans {now : Int} {path : Path} {a b c : Option Entry}
    (h : Upkeep name now P path a b) (h' : Upkeep name now P path b c) :
    Upkeep name now P path a c := by
  -- two changes in a row are of the folder alone or of the saved file alone
  cases h with
  | same => exact h'
  | folder =>
      generalize hpath : [savedFolder] = path at h'
      cases h' with
      | same =>
          rw [← hpath]
          exact .folder
      | gone => exact absurd hpath.symm (savedPath_ne_folder name)
      | saved => exact absurd hpath.symm (savedPath_ne_folder name)
  | gone =>
      generalize hpath : savedPath name = path at h'
      cases h' with
      | same =>
          rw [← hpath]
          exact .gone a
      | folder => exact absurd hpath (savedPath_ne_folder name)
      | gone => exact .gone a
      | saved _ nodes hnodes => exact .saved a nodes hnodes
  | saved _ nodes hnodes =>
      generalize hpath : savedPath name = path at h'
      cases h' with
      | same =>
          rw [← hpath]
          exact .saved a nodes hnodes
      | gone => exact .gone a
      | saved _ other hother => exact .saved a other hother

/-- What lies outside the folder of the saved trees stays as it was. -/
theorem Upkeep.eq_of_outside {now : Int} {path : Path} {a b : Option Entry}
    (h : Upkeep name now P path a b) (hpath : ¬ IsSaved path) : b = a := by
  cases h with
  | same => rfl
  | folder => exact absurd rfl hpath
  | gone => exact absurd rfl hpath
  | saved => exact absurd rfl hpath

/-- Views that have worked for a template. -/
structure Upkeeps (name : Text) (P : List Node → Prop) (v v' : Views) : Prop extends
    Keeps v v' where
  entry : ∀ path, Upkeep name v.now P path (v.disk.entry? path) (v'.disk.entry? path)

theorem Rests.upkeeps (h : v.Rests v') : Upkeeps name P v v' := by
  refine ⟨h.toKeeps, fun path => ?_⟩
  rw [h.disk]
  exact .same path _

theorem Upkeeps.trans (h : Upkeeps name P v v') (h' : Upkeeps name P v' v'') :
    Upkeeps name P v v'' := by
  refine ⟨h.toKeeps.trans h'.toKeeps, fun path => (h.entry path).trans ?_⟩
  rw [← h.now]
  exact h'.entry path

/-- The files outside are the same. -/
theorem Upkeeps.stat?_eq (h : Upkeeps name P v v') {other : Text} (houtside : IsOutside other) :
    v'.disk.stat? other = v.disk.stat? other :=
  Disk.stat?_eq fun path hpath => (h.entry path).eq_of_outside (houtside path hpath)

/-- So are their texts. -/
theorem Upkeeps.textOf_eq (h : Upkeeps name P v v') {other : Text} (hother : IsOutside other) :
    v'.disk.textOf other = v.disk.textOf other :=
  Disk.textOf_congr (h.stat?_eq hother)

/-- A saved file was there before, or holds what has been saved for the template. -/
theorem Upkeeps.saved_cases (h : Upkeeps name P v v') {file : Text} {entry : Entry}
    (hentry : v'.disk.entry? [savedFolder, file] = some entry) :
    v.disk.entry? [savedFolder, file] = some entry ∨
      file = savedFile name ∧ ∃ nodes, P nodes ∧
        entry = .file (Utf8.encode (SavedTree.write nodes)) v.now := by
  have hupkeep := h.entry [savedFolder, file]
  rw [hentry] at hupkeep
  -- the only saved file that changes is that of the template
  generalize v.disk.entry? [savedFolder, file] = before at hupkeep ⊢
  generalize hpath : [savedFolder, file] = path at hupkeep
  cases hupkeep with
  | same => exact .inl rfl
  | folder => simp at hpath
  | saved _ nodes hnodes =>
      have hfile : file = savedFile name := by simpa [savedPath] using hpath
      exact .inr ⟨hfile, nodes, hnodes, rfl⟩

/-- If no file was of a time to come before, none is. -/
theorem Upkeeps.files (h : Upkeeps name P v v')
    (hv : ∀ path content time, v.disk.entry? path = some (.file content time) → time ≤ v.now)
    (path : Path) (content : Bytes) (time : Int)
    (hentry : v'.disk.entry? path = some (.file content time)) : time ≤ v.now := by
  have hupkeep := h.entry path
  rw [hentry] at hupkeep
  generalize hbefore : v.disk.entry? path = before at hupkeep
  cases hupkeep with
  | same => exact hv path content time hbefore
  | saved => exact le_rfl

/-! ## Saved trees -/

theorem upkeeps_withoutSaved (v : Views) (name : Text) :
    Upkeeps name P v (v.withoutSaved name) := by
  refine ⟨⟨rfl, rfl, rfl⟩, fun path => ?_⟩
  rcases Disk.entry?_remove v.disk (savedPath name) path with hsame | ⟨rfl, hgone⟩
  · rw [withoutSaved, hsame]
    exact .same path _
  · rw [withoutSaved, hgone]
    exact .gone _

theorem upkeeps_savedTree (v : Views) (name : Text) :
    Upkeeps name P v (v.savedTree name).2 := by
  have hlooks := v.savedTree_looks name
  generalize v.savedTree name = result at hlooks
  cases hlooks with
  | missing => exact (Rests.refl v).upkeeps
  | expired => exact upkeeps_withoutSaved v name
  | unreadable => exact (Rests.refl v).upkeeps
  | garbled => exact upkeeps_withoutSaved v name
  | used => exact (Rests.refl v).upkeeps

theorem recent_savedTree (v : Views) (name : Text) :
    (v.savedTree name).2.recent = v.recent := by
  have hlooks := v.savedTree_looks name
  generalize v.savedTree name = result at hlooks
  cases hlooks <;> rfl

/-- A saved tree that is found is that of a file which may still be used. -/
theorem of_savedTree {nodes : List Node} (h : (v.savedTree name).1 = some nodes) :
    ∃ content text time, v.disk.entry? (savedPath name) = some (.file content time) ∧
      v.isExpired name time = false ∧ Utf8.decode? content = some text ∧
        SavedTree.read? text = some nodes := by
  have hlooks := v.savedTree_looks name
  generalize v.savedTree name = result at hlooks h
  cases hlooks with
  | used content time text found hsaves hfile hfresh htext hread =>
      obtain rfl := Option.some.inj h
      obtain ⟨path, hpath, hentry⟩ := Disk.of_stat? hfile
      obtain rfl := pathOf?_savedName hpath
      exact ⟨content, text, time, hentry, hfresh, htext, hread⟩
  | _ => contradiction

/-- **Saving a tree writes its file, and its folder if there is none**, or does nothing. -/
theorem upkeeps_save {nodes : List Node} (hnodes : P nodes) (v : Views) (name : Text) :
    Upkeeps name P v (v.save name nodes) := by
  refine ⟨keeps_save v name nodes, fun path => ?_⟩
  unfold save
  split
  · exact .same path _
  · split
    · exact .same path _
    · rename_i disk hdisk
      -- the folder first
      have hfolder : Upkeep name v.now P path (v.disk.entry? path) (disk.entry? path) := by
        rw [Disk.addFolders?_singleton] at hdisk
        split at hdisk
        · rw [← Option.some.inj hdisk]
          exact .same path _
        · contradiction
        · rename_i hnone
          rw [← Option.some.inj hdisk, Disk.entry?_put (List.cons_ne_nil savedFolder [])]
          split_ifs with hpath
          · rw [hpath, hnone]
            exact .folder
          · exact .same path _
      split
      · rename_i target htarget
        obtain rfl := pathOf?_savedName htarget
        apply hfolder.trans
        rcases Disk.write_cases disk (savedPath name) (Utf8.encode (SavedTree.write nodes)) v.now
          with hsame | ⟨hne, -, hput⟩
        · rw [hsame]
          exact .same path _
        · rw [hput, Disk.entry?_put hne]
          split_ifs with hpath
          · rw [hpath]
            exact .saved _ nodes hnodes
          · exact .same path _
      · exact hfolder

theorem recent_save (v : Views) (name : Text) (nodes : List Node) :
    (v.save name nodes).recent = v.recent := by
  unfold save
  repeat' split
  all_goals rfl

/-! ## New views -/

/-- New views have the entries of the disk that they are made of, and may have made the folder of
the saved trees. -/
theorem entry?_of_make {disk : Disk} {now maxAge : Int} {capacity : Nat} {constants : Constants}
    {made : Views} (h : Views.make disk now maxAge capacity constants = .ok made) (path : Path) :
    made.disk.entry? path = disk.entry? path ∨
      path = [savedFolder] ∧ disk.entry? path = none ∧
        made.disk.entry? path = some (.folder now) := by
  rw [eq_of_make h]
  dsimp only
  split_ifs with hsaves
  · cases hfolder : disk.addFolders? now [savedFolder] with
    | none => exact .inl rfl
    | some other =>
        rcases Disk.entry?_addFolders? hfolder path with hsame | ⟨hnone, hentry, hne, hbelow⟩
        · exact .inl hsame
        -- the only start of this path is the path itself
        · rcases List.prefix_cons_iff.mp hbelow with hempty | ⟨rest, hpath, hrest⟩
          · exact absurd hempty hne
          · rw [List.prefix_nil.mp hrest] at hpath
            exact .inr ⟨hpath, hnone, hentry⟩
  · exact .inl rfl

/-- They find the same files outside. -/
theorem stat?_of_make {disk : Disk} {now maxAge : Int} {capacity : Nat} {constants : Constants}
    {made : Views} (h : Views.make disk now maxAge capacity constants = .ok made) {name : Text}
    (hname : IsOutside name) : made.disk.stat? name = disk.stat? name := by
  apply Disk.stat?_eq
  intro path hpath
  rcases entry?_of_make h path with hsame | ⟨rfl, -⟩
  · exact hsame
  · exact absurd rfl (hname _ hpath)

/-! ## Looking for a template -/

/-- The views after a template has been sought in memory and among the saved trees. -/
def sought (v : Views) (name : Text) : Views := ((v.recalled name).2.savedTree name).2

theorem upkeeps_sought (v : Views) (name : Text) : Upkeeps name P v (v.sought name) :=
  (rests_recalled v name).upkeeps.trans (upkeeps_savedTree _ name)

theorem Remembers.sought {Q : Kept → Prop} (hv : v.Remembers Q) (name : Text) :
    (v.sought name).Remembers Q := by
  unfold Remembers Views.sought
  rw [recent_savedTree]
  exact hv.recalled name

end Views

/-! ## Loading a template -/

namespace Template

open Views (Upkeeps Rests Remembers)

variable {t : Template} {v : Views} {name : Text} {P : List Node → Prop} {Q : Kept → Prop}

/-- Where loading a template finds it: what is said, the template, and the views afterwards. -/
inductive Finds (t : Template) (name : Text) (v : Views) :
    Except Fault Unit × Template × Views → Prop
  /-- The name is refused. -/
  | refused (fault : Fault) (h : Views.checkName name = .error fault) :
    Finds t name v (.error fault, t, v)
  /-- Its text is in memory. -/
  | memory (hcheck : Views.checkName name = .ok ()) (source : Text)
    (h : (v.recalled name).1 = some source) :
    Finds t name v
      (.ok (), { t.emptied name with source, loaded := true, fromViews := true },
        (v.recalled name).2)
  /-- Its tree is saved. -/
  | saved (hcheck : Views.checkName name = .ok ()) (nodes : List Node)
    (h : ((v.recalled name).2.savedTree name).1 = some nodes) :
    Finds t name v
      (.ok (), { t.emptied name with tree := some nodes, loaded := true, fromViews := true },
        v.sought name)
  /-- It has a file. -/
  | file (hcheck : Views.checkName name = .ok ()) (source : Text)
    (h : ((v.sought name).readFile name).1 = some source) :
    Finds t name v
      (.ok (), { t.emptied name with source, loaded := true, fromViews := true },
        ((v.sought name).readFile name).2)
  /-- There is none. -/
  | missing (hcheck : Views.checkName name = .ok ())
    (h : ((v.sought name).readFile name).1 = none) :
    Finds t name v
      (.error (.templateNotFound name), t.emptied name, ((v.sought name).readFile name).2)

/-- **A template is found in memory, among the saved trees or in its file**, or not at all. -/
theorem load_finds (t : Template) (name : Text) (v : Views) : Finds t name v (t.load name v) := by
  unfold load
  cases hcheck : Views.checkName name with
  | error fault => exact .refused fault hcheck
  | ok _ =>
      dsimp only
      rcases hmemory : v.recalled name with ⟨found, v₁⟩
      have hafter : (v.recalled name).2 = v₁ := congrArg Prod.snd hmemory
      cases found with
      | some source =>
          have hfound := Finds.memory (t := t) hcheck source (congrArg Prod.fst hmemory)
          rw [hafter] at hfound
          exact hfound
      | none =>
          dsimp only
          rcases htree : v₁.savedTree name with ⟨foundTree, v₂⟩
          have hsought : v.sought name = v₂ := by
            rw [Views.sought, hafter, htree]
          cases foundTree with
          | some nodes =>
              have htree' : ((v.recalled name).2.savedTree name).1 = some nodes := by
                rw [hafter, htree]
              have hfound := Finds.saved (t := t) hcheck nodes htree'
              rw [hsought] at hfound
              exact hfound
          | none =>
              dsimp only
              rcases hfile : v₂.readFile name with ⟨foundFile, v₃⟩
              cases foundFile with
              | some source =>
                  have hfile' : ((v.sought name).readFile name).1 = some source := by
                    rw [hsought, hfile]
                  have hfound := Finds.file (t := t) hcheck source hfile'
                  rw [hsought, hfile] at hfound
                  exact hfound
              | none =>
                  have hfile' : ((v.sought name).readFile name).1 = none := by
                    rw [hsought, hfile]
                  have hfound := Finds.missing (t := t) hcheck hfile'
                  rw [hsought, hfile] at hfound
                  exact hfound

/-- **Loading a template touches nothing but its own saved file.** -/
theorem upkeeps_load (t : Template) (name : Text) (v : Views) :
    Upkeeps name P v (t.load name v).2.2 := by
  have hsought := Views.upkeeps_sought (P := P) v name
  have hread := hsought.trans (Views.rests_readFile (v.sought name) name).upkeeps
  have hfound := load_finds t name v
  generalize t.load name v = result at hfound
  cases hfound with
  | refused => exact (Rests.refl v).upkeeps
  | memory => exact (Views.rests_recalled v name).upkeeps
  | saved => exact hsought
  | file => exact hread
  | missing => exact hread

/-- Loading a template adds nothing to the memory but the content of its file. -/
theorem remembers_load (hv : v.Remembers Q)
    (hfile : ∀ content time, (t.load name v).2.2.disk.stat? name = some (.file content time) →
      Q ⟨name, content, time⟩) : (t.load name v).2.2.Remembers Q := by
  have hread : (∀ content time, (v.sought name).disk.stat? name = some (.file content time) →
      Q ⟨name, content, time⟩) → ((v.sought name).readFile name).2.Remembers Q :=
    (hv.sought name).readFile
  have hdisk := (Views.rests_readFile (v.sought name) name).disk
  have hfound := load_finds t name v
  generalize t.load name v = result at hfound hfile
  cases hfound with
  | refused => exact hv
  | memory => exact hv.recalled name
  | saved => exact hv.sought name
  | file =>
      dsimp only at hfile
      rw [hdisk] at hfile
      exact hread hfile
  | missing =>
      dsimp only at hfile
      rw [hdisk] at hfile
      exact hread hfile

/-! ## Making the page -/

/-- A template that has its tree keeps it. -/
theorem run_parse_of_tree {nodes : List Node} (h : t.tree = some nodes) (v : Views) :
    Action.run t.parse v = (.ok t, v) := by
  unfold parse
  rw [h]
  rfl

/-- A template that was not loaded has no tree. -/
theorem run_parse_of_unloaded (htree : t.tree = none) (hloaded : t.loaded = false) (v : Views) :
    Action.run t.parse v = (.error (.templateNotFound t.name), v) := by
  unfold parse
  rw [htree]
  dsimp only
  rw [if_neg (Bool.eq_false_iff.mp hloaded)]
  rfl

/-- The tree of a template is made from its source, and is saved. -/
theorem run_parse_of_source (htree : t.tree = none) (hloaded : t.loaded = true) (v : Views) :
    Action.run t.parse v =
      match Action.run (Node.parse Views.load t.source t.name) v with
      | (.ok nodes, after) => (.ok { t with tree := some nodes }, t.saveTree nodes after)
      | (.error fault, after) => (.error fault, after) := by
  unfold parse
  rw [htree]
  dsimp only
  rw [if_pos hloaded, Action.run_bind]
  rcases Action.run (Node.parse Views.load t.source t.name) v with ⟨result, after⟩
  cases result <;> rfl

/-- The tree of a template is saved, or nothing is. -/
theorem saveTree_cases (t : Template) (nodes : List Node) (v : Views) :
    t.saveTree nodes v = v ∨
      v.isCurrent t.name = false ∧ t.saveTree nodes v = v.save t.name nodes := by
  unfold saveTree
  split
  · rename_i h
    simp only [Bool.and_eq_true, Bool.not_eq_true'] at h
    exact .inr ⟨h.2, rfl⟩
  · exact .inl rfl

/-- Making the tree of a template touches nothing but its own saved file. -/
theorem upkeeps_parse (t : Template) (v : Views)
    (hnodes : ∀ nodes, t.tree = none → t.loaded = true →
      (Action.run (Node.parse Views.load t.source t.name) v).1 = .ok nodes → P nodes) :
    Upkeeps t.name P v (Action.run t.parse v).2 := by
  cases htree : t.tree with
  | some nodes =>
      rw [run_parse_of_tree htree]
      exact (Rests.refl v).upkeeps
  | none =>
      cases hloaded : t.loaded with
      | false =>
          rw [run_parse_of_unloaded htree hloaded]
          exact (Rests.refl v).upkeeps
      | true =>
          have hrests := v.rests_parse t.source t.name
          rw [run_parse_of_source htree hloaded]
          rcases hrun : Action.run (Node.parse Views.load t.source t.name) v with ⟨result, after⟩
          rw [hrun] at hrests hnodes
          cases result with
          | error fault => exact hrests.upkeeps
          | ok nodes =>
              apply hrests.upkeeps.trans
              rcases t.saveTree_cases nodes after with hsame | ⟨-, hsaved⟩
              · dsimp only
                rw [hsame]
                exact (Rests.refl after).upkeeps
              · dsimp only
                rw [hsaved]
                exact Views.upkeeps_save (hnodes nodes htree hloaded rfl) after t.name

/-- Making the tree of a template adds nothing to the memory but contents of files. -/
theorem remembers_parse (hv : v.Remembers Q)
    (hfile : ∀ name content time, v.disk.stat? name = some (.file content time) →
      Q ⟨name, content, time⟩) (t : Template) : (Action.run t.parse v).2.Remembers Q := by
  cases htree : t.tree with
  | some nodes =>
      rw [run_parse_of_tree htree]
      exact hv
  | none =>
      cases hloaded : t.loaded with
      | false =>
          rw [run_parse_of_unloaded htree hloaded]
          exact hv
      | true =>
          have hafter := (Views.parse_remembers hv hfile t.source t.name).2
          rw [run_parse_of_source htree hloaded]
          rcases hrun : Action.run (Node.parse Views.load t.source t.name) v with ⟨result, after⟩
          rw [hrun] at hafter
          cases result with
          | error fault => exact hafter
          | ok nodes =>
              rcases t.saveTree_cases nodes after with hsame | ⟨-, hsaved⟩
              · dsimp only
                rw [hsame]
                exact hafter
              · dsimp only
                rw [hsaved]
                unfold Remembers
                rw [Views.recent_save]
                exact hafter

/-- The page of a template is rendered from its tree; the views are those after making it. -/
theorem compile_eq (t : Template) (v : Views) :
    (t.compile v).1 = ((Action.run t.parse v).1.bind fun after =>
        after.render (Action.run t.parse v).2.constants) ∧
      (t.compile v).2.2 = (Action.run t.parse v).2 := by
  unfold compile
  rcases Action.run t.parse v with ⟨parsed, after⟩
  cases parsed with
  | error fault => exact ⟨rfl, rfl⟩
  | ok t' =>
      dsimp only
      cases hrender : t'.render after.constants with
      | error fault => exact ⟨hrender.symm, rfl⟩
      | ok output => exact ⟨hrender.symm, rfl⟩

/-- The template afterwards is the one with its tree, if that could be made. -/
theorem compile_template (t : Template) (v : Views) :
    ∃ output, (t.compile v).2.1 =
      { ((Action.run t.parse v).1.toOption.getD t) with output } := by
  unfold compile
  rcases Action.run t.parse v with ⟨parsed, after⟩
  cases parsed with
  | error fault => exact ⟨t.output, rfl⟩
  | ok t' =>
      dsimp only
      cases t'.render after.constants with
      | error fault => exact ⟨t'.output, rfl⟩
      | ok output => exact ⟨some output, rfl⟩

/-- **Making the page of a template touches nothing but its own saved file.** -/
theorem upkeeps_compile (t : Template) (v : Views)
    (hnodes : ∀ nodes, t.tree = none → t.loaded = true →
      (Action.run (Node.parse Views.load t.source t.name) v).1 = .ok nodes → P nodes) :
    Upkeeps t.name P v (t.compile v).2.2 := by
  rw [(compile_eq t v).2]
  exact upkeeps_parse t v hnodes

theorem remembers_compile (hv : v.Remembers Q)
    (hfile : ∀ name content time, v.disk.stat? name = some (.file content time) →
      Q ⟨name, content, time⟩) (t : Template) : (t.compile v).2.2.Remembers Q := by
  rw [(compile_eq t v).2]
  exact remembers_parse hv hfile t

end Template
end PageServer
