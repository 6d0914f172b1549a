/-
# Views that agree with their files

Over files that do not change, what the views keep of a template in memory is
its text, and what they keep of it on disk is the tree of a template with the
same saved file. The invariant is kept by everything that the views do: reading
a text, using a saved tree, removing it, and saving one.

* `Disk.textOf`, `Disk.treeOf`: the text and the tree of a template by its files alone
* `Views.Undisturbed`: templates that do not lie among the saved trees
* `Views.Faithful`: views that agree with files
* `Views.Faithful.load`: an include tag gets the text of the file
* `Views.Faithful.savedTree`: a saved tree is that of a template with the same saved file
* `Views.Faithful.save`: saving the tree of a template keeps the invariant
-/
import PageServer.Proofs.Template.Loading
import PageServer.Proofs.Text.Utf8
import PageServer.Proofs.Views.Looking
import PageServer.Proofs.Views.SavedTree

namespace PageServer

/-! ## Templates by their files alone -/

/-- The text of a template among some files. -/
def Disk.textOf (files : Disk) (name : Text) : Except Fault Text :=
  match Views.checkName name with
  | .error fault => .error fault
  | .ok () =>
    match files.stat? name with
    | some (.file content _) => .ok (Utf8.decodeLossy content)
    | _ => .error (.templateNotFound name)

/-- The tree of a template among some files, with the templates it includes. -/
def Disk.treeOf (files : Disk) (name : Text) : Except Fault (List Node) :=
  match files.textOf name with
  | .ok source => Node.parseWith files.textOf source name
  | .error fault => .error fault

/-- A template with a tree has a text. -/
theorem Disk.textOf_of_treeOf {files : Disk} {name : Text} {nodes : List Node}
    (h : files.treeOf name = .ok nodes) : ∃ source, files.textOf name = .ok source := by
  unfold treeOf at h
  split at h
  · rename_i source hsource
    exact ⟨source, hsource⟩
  · contradiction

/-- What is written in the conditions of a template is neither a map nor a loop. -/
theorem Disk.treeOf_literals {files : Disk} {name : Text} {nodes : List Node}
    (h : files.treeOf name = .ok nodes) : NodesLiterals Value.IsScalar nodes := by
  unfold treeOf at h
  split at h
  · exact Node.parseWith_literals h
  · contradiction

namespace Views

/-- Whether a path lies in the folder of the saved trees. -/
def IsSaved (path : Path) : Prop := path.head? = some savedFolder

/-- Templates that are read the same way whatever is saved: neither they nor those that they
include lie in the folder of the saved trees. The folder itself is no template. -/
structure Undisturbed (files : Disk) (names : Set Text) : Prop where
  /-- Included templates are among them. -/
  closed : IncludeClosed names files.textOf
  /-- They lie outside. -/
  outside : ∀ name ∈ names, ∀ path, Disk.pathOf? name = some path → IsSaved path →
    path = [savedFolder]
  /-- There is no file in place of the folder. -/
  folder : ∀ content time, files.entry? [savedFolder] ≠ some (.file content time)

/-- For a list of templates, inclusion can be followed by computing. -/
theorem includeClosed_of_list {files : Disk} {list : List Text}
    (hclosed : ∀ name ∈ list, ∀ source ∈ (files.textOf name).toOption,
      ∀ tokens ∈ (Token.scan source name).toOption,
        ∀ token ∈ tokens, token.Includes {name | name ∈ list}) :
    IncludeClosed {name | name ∈ list} files.textOf := by
  intro name hname source hsource tokens htokens
  apply hclosed name hname source _ tokens
  · rw [htokens]
    rfl
  · rw [hsource]
    rfl

/-- For a list of templates this can be computed. -/
theorem undisturbed_of_list {files : Disk} {list : List Text}
    (hclosed : ∀ name ∈ list, ∀ source ∈ (files.textOf name).toOption,
      ∀ tokens ∈ (Token.scan source name).toOption,
        ∀ token ∈ tokens, token.Includes {name | name ∈ list})
    (houtside : ∀ name ∈ list, ∀ path ∈ Disk.pathOf? name, path.head? = some savedFolder →
      path = [savedFolder])
    (hfolder : files.entry? [savedFolder] = none) :
    Undisturbed files {name | name ∈ list} := by
  constructor
  · exact includeClosed_of_list hclosed
  · exact houtside
  · intro content time
    rw [hfolder]
    simp

/-- The tree that a name finds saved: that of a template with the same saved file, after it has
been written and read. -/
def SavedFor (files : Disk) (opened : Set Text) (name : Text) (nodes : List Node) : Prop :=
  ∃ maker ∈ opened, savedFile maker = savedFile name ∧
    ∃ made, files.treeOf maker = .ok made ∧
      SavedTree.read? (SavedTree.write made) = some nodes

/-- Views that agree with files: outside the folder of the saved trees there are the same files,
what lies directly in it are the trees of templates in `opened`, and each text in memory is that
of a file. -/
structure Faithful (files : Disk) (opened : Set Text) (v : Views) : Prop where
  outside : ∀ path, ¬ IsSaved path → v.disk.entry? path = files.entry? path
  folder : ∀ content time, v.disk.entry? [savedFolder] ≠ some (.file content time)
  saved : ∀ file entry, v.disk.entry? [savedFolder, file] = some entry →
    ∃ name ∈ opened, savedFile name = file ∧ ∃ nodes time, files.treeOf name = .ok nodes ∧
      entry = .file (Utf8.encode (SavedTree.write nodes)) time
  kept : ∀ k ∈ v.recent.kept, files.stat? k.name = some (.file k.content k.time)

/-- Views with the same settings at the same time. -/
structure Keeps (v v' : Views) : Prop where
  constants : v'.constants = v.constants
  now : v'.now = v.now
  maxAge : v'.maxAge = v.maxAge

theorem Keeps.refl (v : Views) : v.Keeps v := ⟨rfl, rfl, rfl⟩

theorem Keeps.trans {v v' v'' : Views} (h : v.Keeps v') (h' : v'.Keeps v'') : v.Keeps v'' :=
  ⟨h'.constants.trans h.constants, h'.now.trans h.now, h'.maxAge.trans h.maxAge⟩

end Views

/-! ## What is kept in memory -/

namespace Recent

/-- What is found was kept under the name, with the time. -/
theorem of_find {r : Recent} {name : Text} {time : Int} {content : Bytes}
    (h : (r.find name time).1 = some content) : ⟨name, content, time⟩ ∈ r.kept := by
  unfold find at h
  split at h
  · contradiction
  · rename_i k hk
    dsimp only at h
    split_ifs at h with htime
    have hname : k.name = name := by simpa using List.find?_some hk
    have hmem : k ∈ r.kept := List.mem_of_find?_eq_some hk
    rw [← hname, ← Option.some.inj h, ← htime]
    exact hmem

/-- Looking for a content keeps no other ones than before. -/
theorem mem_of_mem_find {r : Recent} {name : Text} {time : Int} {k : Kept}
    (h : k ∈ (r.find name time).2.kept) : k ∈ r.kept := by
  unfold find at h
  split at h
  · exact h
  · rename_i found hfound
    rcases List.mem_cons.mp h with rfl | hrest
    · exact List.mem_of_find?_eq_some hfound
    · exact (List.mem_filter.mp hrest).1

theorem mem_of_mem_put {r : Recent} {name : Text} {content : Bytes} {time : Int} {k : Kept}
    (h : k ∈ (r.put name content time).kept) : k = ⟨name, content, time⟩ ∨ k ∈ r.kept := by
  rcases List.mem_cons.mp (List.mem_of_mem_take h) with hnew | hold
  · exact .inl hnew
  · exact .inr (List.mem_filter.mp hold).1

theorem mem_of_mem_forget {r : Recent} {name : Text} {k : Kept}
    (h : k ∈ (r.forget name).kept) : k ∈ r.kept :=
  (List.mem_filter.mp h).1

end Recent

namespace Views

variable {files : Disk} {names opened : Set Text} {v : Views} {name : Text}

/-! ## Reading texts -/

/-- A name that is refused has no path. -/
theorem pathOf?_of_checkName {fault : Fault} (h : checkName name = .error fault) :
    Disk.pathOf? name = none := by
  unfold checkName at h
  split_ifs at h with hinside
  simp [Disk.pathOf?, hinside]

namespace Faithful

/-- A change of the texts in memory that only takes away or adds the text of a file. -/
theorem of_recent (hv : v.Faithful files opened) {recent : Recent}
    (h : ∀ k ∈ recent.kept, k ∈ v.recent.kept ∨ files.stat? k.name = some (.file k.content k.time)) :
    Faithful files opened { v with recent } := by
  constructor
  · exact hv.outside
  · exact hv.folder
  · exact hv.saved
  · intro k hk
    rcases h k hk with hold | hnew
    · exact hv.kept k hold
    · exact hnew

/-- The views find the same file under a name as there is among the files. -/
theorem stat?_file_iff (hnames : Undisturbed files names) (hv : v.Faithful files opened)
    (hname : name ∈ names) (content : Bytes) (time : Int) :
    v.disk.stat? name = some (.file content time) ↔
      files.stat? name = some (.file content time) := by
  cases hpath : Disk.pathOf? name with
  | none => simp only [Disk.stat?_of_pathOf?_none _ hpath]
  | some path =>
      by_cases hsaved : IsSaved path
      · -- then the path is that of the folder, where no file is
        obtain rfl := hnames.outside name hname path hpath hsaved
        constructor
        · intro h
          obtain ⟨path, hpath', hentry⟩ := Disk.of_stat? h
          obtain rfl := Option.some.inj (hpath.symm.trans hpath')
          exact absurd hentry (hv.folder content time)
        · intro h
          obtain ⟨path, hpath', hentry⟩ := Disk.of_stat? h
          obtain rfl := Option.some.inj (hpath.symm.trans hpath')
          exact absurd hentry (hnames.folder content time)
      · rw [Disk.stat?_congr hpath (hv.outside path hsaved)]

theorem textOf_of_file (h : checkName name = .ok ()) {content : Bytes} {time : Int}
    (hfile : files.stat? name = some (.file content time)) :
    files.textOf name = .ok (Utf8.decodeLossy content) := by
  simp only [Disk.textOf, h, hfile]

/-- A text from memory is that of the file. -/
theorem recalled (hv : v.Faithful files opened) (name : Text) :
    (v.recalled name).2.Faithful files opened ∧
      ∀ text, (v.recalled name).1 = some text → files.textOf name = .ok text := by
  unfold Views.recalled
  split
  · exact ⟨hv, fun text h => by contradiction⟩
  · rename_i entry hentry
    refine ⟨hv.of_recent fun k hk => .inl (Recent.mem_of_mem_find hk), ?_⟩
    intro text htext
    obtain ⟨content, hcontent, rfl⟩ := Option.map_eq_some_iff.mp htext
    have hfile := hv.kept _ (Recent.of_find hcontent)
    apply textOf_of_file _ hfile
    -- a refused name finds no file
    cases hcheck : checkName name with
    | ok _ => rfl
    | error fault =>
        rw [Disk.stat?_of_pathOf?_none _ (pathOf?_of_checkName hcheck)] at hentry
        contradiction

/-- A text that is read is that of the file. -/
theorem readFile (hnames : Undisturbed files names) (hv : v.Faithful files opened)
    (hname : name ∈ names) (hcheck : checkName name = .ok ()) :
    (v.readFile name).2.Faithful files opened ∧
      ((∃ text, (v.readFile name).1 = some text ∧ files.textOf name = .ok text) ∨
        ((v.readFile name).1 = none ∧ files.textOf name = .error (.templateNotFound name))) := by
  unfold Views.readFile
  split
  · rename_i content time hstat
    have hfile := (stat?_file_iff hnames hv hname content time).mp hstat
    constructor
    · apply hv.of_recent
      intro k hk
      rcases Recent.mem_of_mem_put hk with rfl | hold
      · exact .inr hfile
      · exact .inl hold
    · exact .inl ⟨_, rfl, textOf_of_file hcheck hfile⟩
  · rename_i hstat
    refine ⟨hv.of_recent fun k hk => .inl (Recent.mem_of_mem_forget hk), .inr ⟨rfl, ?_⟩⟩
    unfold Disk.textOf
    rw [hcheck]
    dsimp only
    split
    · rename_i content time hfile
      exact absurd ((stat?_file_iff hnames hv hname content time).mpr hfile)
        (hstat content time)
    · rfl

/-- A text from memory or from the file is that of the file. -/
theorem source (hnames : Undisturbed files names) (hv : v.Faithful files opened)
    (hname : name ∈ names) (hcheck : checkName name = .ok ()) :
    (v.source name).2.Faithful files opened ∧
      ((∃ text, (v.source name).1 = some text ∧ files.textOf name = .ok text) ∨
        ((v.source name).1 = none ∧ files.textOf name = .error (.templateNotFound name))) := by
  obtain ⟨hafter, htext⟩ := hv.recalled name
  unfold Views.source
  rcases hrecalled : v.recalled name with ⟨found, after⟩
  rw [hrecalled] at hafter htext
  cases found with
  | some text => exact ⟨hafter, .inl ⟨text, rfl, htext text rfl⟩⟩
  | none => exact hafter.readFile hnames hname hcheck

end Faithful

/-! Nothing but the disk and the memory changes. -/

theorem keeps_recalled (v : Views) (name : Text) : v.Keeps (v.recalled name).2 := by
  unfold recalled
  split
  · exact .refl v
  · exact ⟨rfl, rfl, rfl⟩

theorem keeps_readFile (v : Views) (name : Text) : v.Keeps (v.readFile name).2 := by
  unfold readFile
  split
  · exact ⟨rfl, rfl, rfl⟩
  · exact ⟨rfl, rfl, rfl⟩

theorem keeps_source (v : Views) (name : Text) : v.Keeps (v.source name).2 := by
  have hrecalled := keeps_recalled v name
  unfold source
  rcases hfound : v.recalled name with ⟨found, after⟩
  rw [hfound] at hrecalled
  cases found with
  | some text => exact hrecalled
  | none => exact hrecalled.trans (keeps_readFile after name)

/-- **An include tag gets the text of the file**, from memory or not. -/
theorem Faithful.load (hnames : Undisturbed files names) (before : Views) :
    Loader.Serves (fun v => v.Faithful files opened ∧ before.Keeps v) names files.textOf
      Views.load := by
  intro name hname v hv
  obtain ⟨hv, hkeeps⟩ := hv
  cases hcheck : checkName name with
  | error fault =>
      have htext : files.textOf name = .error fault := by simp only [Disk.textOf, hcheck]
      have hload : Action.run (Views.load name) v = (.error fault, v) := by
        simp only [Views.load, Action.run_mk, hcheck]
      rw [hload, htext]
      exact ⟨rfl, hv, hkeeps⟩
  | ok _ =>
      obtain ⟨hafter, htext⟩ := hv.source hnames hname hcheck
      have hafterKeeps := hkeeps.trans (keeps_source v name)
      simp only [Views.load, Action.run_mk, hcheck]
      rcases hsource : v.source name with ⟨found, after⟩
      rw [hsource] at hafter htext hafterKeeps
      rcases htext with ⟨text, rfl, htext⟩ | ⟨rfl, htext⟩
      · exact ⟨htext.symm, hafter, hafterKeeps⟩
      · exact ⟨htext.symm, hafter, hafterKeeps⟩

/-! ## Using saved trees -/

namespace Faithful

/-- A change of the disk that touches only the folder of the saved trees, which stays a folder
and holds nothing but such trees. -/
theorem of_disk (hv : v.Faithful files opened) {disk : Disk}
    (h : ∀ path, disk.entry? path = v.disk.entry? path ∨ IsSaved path ∧
      (∀ content time, path = [savedFolder] → disk.entry? path ≠ some (.file content time)) ∧
      ∀ file entry, path = [savedFolder, file] → disk.entry? path = some entry →
        ∃ name ∈ opened, savedFile name = file ∧ ∃ nodes time, files.treeOf name = .ok nodes ∧
          entry = .file (Utf8.encode (SavedTree.write nodes)) time) :
    Faithful files opened { v with disk } := by
  constructor
  · intro path hsaved
    rcases h path with hsame | ⟨hpath, -⟩
    · exact hsame.trans (hv.outside path hsaved)
    · exact absurd hpath hsaved
  · intro content time
    rcases h [savedFolder] with hsame | ⟨-, hfolder, -⟩
    · intro hfile
      exact hv.folder content time (hsame.symm.trans hfile)
    · exact hfolder content time rfl
  · intro file entry hentry
    rcases h [savedFolder, file] with hsame | ⟨-, -, hsaved⟩
    · exact hv.saved file entry (hsame.symm.trans hentry)
    · exact hsaved file entry rfl hentry
  · exact hv.kept

/-- A saved tree may be taken away. -/
theorem withoutSaved (hv : v.Faithful files opened) (name : Text) :
    (v.withoutSaved name).Faithful files opened := by
  apply hv.of_disk
  intro path
  rcases Disk.entry?_remove v.disk (savedPath name) path with hsame | ⟨rfl, hgone⟩
  · exact .inl hsame
  · right
    rw [hgone]
    refine ⟨rfl, ?_, ?_⟩
    · intro content time _ hfile
      contradiction
    · intro file entry _ hfile
      contradiction

/-- **A saved tree is that of a template with the same saved file.** -/
theorem savedTree (hv : v.Faithful files opened) (name : Text) :
    (v.savedTree name).2.Faithful files opened ∧
      ∀ nodes, (v.savedTree name).1 = some nodes → SavedFor files opened name nodes := by
  have hlooks := v.savedTree_looks name
  generalize v.savedTree name = result at hlooks
  cases hlooks with
  | missing => exact ⟨hv, nofun⟩
  | expired => exact ⟨hv.withoutSaved name, nofun⟩
  | unreadable => exact ⟨hv, nofun⟩
  | garbled => exact ⟨hv.withoutSaved name, nofun⟩
  | used content time text nodes hsaves hfile hfresh htext hread =>
      -- what lies there has been saved for some template
      obtain ⟨path, hpath, hentry⟩ := Disk.of_stat? hfile
      obtain rfl := pathOf?_savedName hpath
      obtain ⟨maker, hmaker, hshared, made, time', hmade, hsaved⟩ := hv.saved _ _ hentry
      obtain ⟨rfl, -⟩ := Entry.file.inj hsaved
      obtain rfl := Option.some.inj ((Utf8.decode?_encode _).symm.trans htext)
      refine ⟨hv, fun found hfound => ?_⟩
      obtain rfl := Option.some.inj hfound
      exact ⟨maker, hmaker, hshared, made, hmade, hread⟩

end Faithful

/-! ## Saving trees -/

namespace Faithful

/-- Making the folder of the saved trees. -/
theorem addFolder (hv : v.Faithful files opened) {now : Int} {disk : Disk}
    (h : v.disk.addFolders? now [savedFolder] = some disk) :
    Faithful files opened { v with disk } := by
  rw [Disk.addFolders?_singleton] at h
  split at h
  · obtain rfl := Option.some.inj h
    exact hv
  · contradiction
  · obtain rfl := Option.some.inj h
    apply hv.of_disk
    intro path
    rw [Disk.entry?_put (List.cons_ne_nil savedFolder [])]
    split_ifs with hpath
    · right
      subst hpath
      refine ⟨rfl, ?_, ?_⟩
      · intro content time _ hfile
        exact Entry.noConfusion (Option.some.inj hfile)
      · intro file entry hfile
        simp at hfile
    · exact .inl rfl

/-- **Saving the tree of a template keeps the views in agreement with the files.** -/
theorem save (hv : v.Faithful files opened) {nodes : List Node} (hname : name ∈ opened)
    (hnodes : files.treeOf name = .ok nodes) : (v.save name nodes).Faithful files opened := by
  unfold Views.save
  split
  · exact hv
  · split
    · exact hv
    · rename_i disk hdisk
      have hfolder := hv.addFolder hdisk
      split
      · rename_i path hpath
        obtain rfl := pathOf?_savedName hpath
        rcases Disk.write_cases disk (savedPath name) (Utf8.encode (SavedTree.write nodes)) v.now
          with hsame | ⟨hne, -, hput⟩
        · rw [hsame]
          exact hfolder
        · -- the one path that is written is that of the saved file
          rw [hput]
          apply hfolder.of_disk
          intro path
          rw [Disk.entry?_put hne]
          split_ifs with hpath
          · right
            subst hpath
            refine ⟨rfl, ?_, ?_⟩
            · intro content time hfolder
              simp [savedPath] at hfolder
            · intro file entry hfile hentry
              have hsavedFile : savedFile name = file := by simpa [savedPath] using hfile
              exact ⟨name, hname, hsavedFile, nodes, v.now, hnodes,
                (Option.some.inj hentry).symm⟩
          · exact .inl rfl
      · exact hfolder

end Faithful

theorem keeps_save (v : Views) (name : Text) (nodes : List Node) :
    v.Keeps (v.save name nodes) := by
  unfold save
  repeat' split
  all_goals exact ⟨rfl, rfl, rfl⟩

theorem keeps_savedTree (v : Views) (name : Text) : v.Keeps (v.savedTree name).2 := by
  have hlooks := v.savedTree_looks name
  generalize v.savedTree name = result at hlooks
  cases hlooks <;> exact ⟨rfl, rfl, rfl⟩

/-! ## New views -/

/-- Views with nothing in memory and the disk of views that agree with files do so themselves. -/
theorem Faithful.fresh (hv : v.Faithful files opened) {made : Views} (hdisk : made.disk = v.disk)
    (hrecent : made.recent.kept = []) : made.Faithful files opened := by
  constructor
  · rw [hdisk]
    exact hv.outside
  · rw [hdisk]
    exact hv.folder
  · rw [hdisk]
    exact hv.saved
  · rw [hrecent]
    intro k hk
    contradiction

/-- There are new views if there is room for a text, with a folder for saved trees if they save
any. -/
theorem make_eq {capacity : Nat} (h : capacity ≠ 0) (disk : Disk) (now maxAge : Int)
    (constants : Constants) :
    Views.make disk now maxAge capacity constants =
      .ok { disk := if 0 < maxAge then (disk.addFolders? now [savedFolder]).getD disk else disk,
            now, recent := { capacity }, maxAge, constants } := by
  have hmake : Views.make disk now maxAge capacity constants =
      (if capacity = 0 then .error .noCapacity else .ok { capacity }) >>= fun recent =>
        if decide (0 < maxAge) = true then
          .ok { disk := (disk.addFolders? now [savedFolder]).getD disk, now, recent, maxAge,
                constants }
        else .ok { disk, now, recent, maxAge, constants } := rfl
  rw [hmake, if_neg h]
  by_cases hsaves : 0 < maxAge
  · rw [if_pos hsaves, decide_eq_true hsaves]
    rfl
  · rw [if_neg hsaves, decide_eq_false hsaves]
    rfl

theorem make_zero (disk : Disk) (now maxAge : Int) (constants : Constants) :
    Views.make disk now maxAge 0 constants = .error .noCapacity := rfl

/-- New views are what they are made of. -/
theorem eq_of_make {disk : Disk} {now maxAge : Int} {capacity : Nat} {constants : Constants}
    {made : Views} (h : Views.make disk now maxAge capacity constants = .ok made) :
    made =
      { disk := if 0 < maxAge then (disk.addFolders? now [savedFolder]).getD disk else disk,
        now, recent := { capacity }, maxAge, constants } := by
  have hcapacity : capacity ≠ 0 := by
    rintro rfl
    rw [make_zero] at h
    contradiction
  rw [make_eq hcapacity] at h
  exact (Except.ok.inj h).symm

/-- New views of the same disk agree with the files. -/
theorem Faithful.make (hv : v.Faithful files opened) {now maxAge : Int} {capacity : Nat}
    {constants : Constants} {made : Views}
    (h : Views.make v.disk now maxAge capacity constants = .ok made) :
    made.Faithful files opened ∧ made.constants = constants := by
  obtain rfl := eq_of_make h
  refine ⟨?_, rfl⟩
  -- the views before a folder for saved trees is made
  let views : Views := { disk := v.disk, now, recent := { capacity }, maxAge, constants }
  have hviews : views.Faithful files opened := hv.fresh rfl rfl
  by_cases hsaves : 0 < maxAge
  · rw [if_pos hsaves]
    cases hfolder : v.disk.addFolders? now [savedFolder] with
    | none => exact hviews
    | some disk => exact hviews.addFolder hfolder
  · rw [if_neg hsaves]
    exact hviews

/-- Views of files without saved trees agree with them while nothing is in memory. -/
theorem Faithful.of_files (hnames : Undisturbed files names)
    (hempty : ∀ file, files.entry? [savedFolder, file] = none) (hdisk : v.disk = files)
    (hrecent : v.recent.kept = []) : v.Faithful files opened := by
  constructor
  · intro path _
    rw [hdisk]
  · rw [hdisk]
    exact hnames.folder
  · intro file entry hfile
    rw [hdisk, hempty] at hfile
    contradiction
  · rw [hrecent]
    intro k hk
    contradiction

/-- New views of files without saved trees agree with them. -/
theorem Faithful.of_make (hnames : Undisturbed files names)
    (hempty : ∀ file, files.entry? [savedFolder, file] = none) {now maxAge : Int} {capacity : Nat}
    {constants : Constants} {made : Views}
    (h : Views.make files now maxAge capacity constants = .ok made) :
    made.Faithful files opened := by
  have hstart : Faithful files opened
      { disk := files, now, recent := { capacity }, maxAge, constants } :=
    of_files hnames hempty rfl rfl
  exact (hstart.make h).1

end Views
end PageServer
