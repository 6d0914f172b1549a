/-
# Templates that share a saved file

The name of a saved file has underscores for the slashes and backslashes of the
name of its template, so templates with different files may share it. Then one
of them is given the tree of the other, and this is the only way in which it
can get a tree that is not its own.

* `Desk.tree_of_run`: where the tree of a template comes from, in any run
* `Views.entry?_save`, `Views.savedTree_of_entry`: a tree is saved and found again
* `Desk.tree_shared_iff`: a template gets the tree of another if and only if they share a saved
  file
-/
import PageServer.Proofs.Views.Desk
import PageServer.Proofs.Views.Expiry

namespace PageServer

variable {files : Disk} {names opened : Set Text} {v : Views} {name : Text}

/-! ## Where trees come from -/

/-- **The tree of a template is its own or that of one with the same saved file**, the latter
after it has been written and read, whatever is done with templates and views. -/
theorem Desk.tree_of_run (hnames : Views.Undisturbed files names) (hsub : opened ⊆ names)
    (hempty : ∀ file, files.entry? [Views.savedFolder, file] = none) {now maxAge : Int}
    {capacity : Nat} {constants : Constants} {views : Views}
    (hviews : Views.make files now maxAge capacity constants = .ok views) {steps : List Step}
    (hsteps : Opens opened steps) {slot : Nat} {nodes : List Node}
    (htree : ((run { views } steps).slots slot).tree = some nodes) :
    files.treeOf ((run { views } steps).slots slot).name = .ok nodes ∨
      Views.SavedFor files opened ((run { views } steps).slots slot).name nodes := by
  have hsound : Sound files opened { views } := sound_of_make hnames hempty hviews
  have hrun := run_sound hnames hsub hsound hsteps
  exact ((hrun.slots slot).tree nodes htree).2

namespace Views

/-! ## A tree that is saved -/

/-- Without saved trees nothing lies in their folder. -/
theorem Faithful.entry?_of_empty (hv : v.Faithful files ∅) (file : Text) :
    v.disk.entry? [savedFolder, file] = none := by
  cases hentry : v.disk.entry? [savedFolder, file] with
  | none => rfl
  | some entry =>
      obtain ⟨maker, hmaker, -⟩ := hv.saved file entry hentry
      contradiction

/-- **A tree is saved in its file**, with the present time, if there was none. -/
theorem entry?_save (hv : v.Faithful files ∅) (hsaves : 0 < v.maxAge) {path : Path}
    (hpath : Disk.pathOf? (savedName name) = some path) (nodes : List Node) :
    Disk.entry? (v.save name nodes).disk (savedPath name) =
      some (.file (Utf8.encode (SavedTree.write nodes)) v.now) := by
  have htakes : v.Takes name := by
    refine ⟨possible_of_pathOf? hpath, hv.folder, fun made hmade => ?_⟩
    rw [savedPath, hv.entry?_of_empty] at hmade
    contradiction
  rw [← stat?_savedName hpath]
  exact stat?_save hsaves htakes nodes

/-- **A tree that has just been saved is used**, by every template with that saved file. -/
theorem savedTree_of_entry (hsaves : 0 < v.maxAge) {path : Path}
    (hpath : Disk.pathOf? (savedName name) = some path) {nodes : List Node}
    (hentry : v.disk.entry? (savedPath name) =
      some (.file (Utf8.encode (SavedTree.write nodes)) v.now))
    (hread : SavedTree.read? (SavedTree.write nodes) = some nodes) :
    v.savedTree name = (some nodes, v) := by
  -- no second has passed since then
  have hfile := (stat?_savedName hpath).trans hentry
  have hyounger : v.secondsSince 1 v.now < v.maxAge := by
    rw [secondsSince_of_le le_rfl]
    exact hsaves
  obtain ⟨hfound, hremoves⟩ := savedTree_of_younger one_pos (mul_one _).symm hsaves hfile
    (Utf8.decode?_encode _) hyounger
  rcases v.savedTree_frame name with hsame | ⟨hremoved, -⟩
  · exact Prod.ext (hfound.trans hread) hsame
  · rw [hremoves, hread] at hremoved
    contradiction

/-- New views have the saved trees of the ones before. -/
theorem entry?_make {disk : Disk} {now maxAge : Int} {capacity : Nat} {constants : Constants}
    {made : Views} (h : Views.make disk now maxAge capacity constants = .ok made) {path : Path}
    (hpath : path ≠ [savedFolder]) : made.disk.entry? path = disk.entry? path := by
  obtain rfl := eq_of_make h
  by_cases hsaves : 0 < maxAge
  · rw [if_pos hsaves, Disk.addFolders?_singleton]
    split
    · rfl
    · rfl
    · have hput := Disk.entry?_put (List.cons_ne_nil savedFolder []) disk (.folder now)
      show Disk.entry? (disk.put [savedFolder] (.folder now)) path = disk.entry? path
      rw [hput, if_neg hpath]
  · rw [if_neg hsaves]

end Views

/-! ## A tree that is shared -/

namespace Template

variable {t : Template}

/-- A template that is loaded while no tree is saved has the text of its file. -/
theorem load_of_empty (hnames : Views.Undisturbed files names) (hv : v.Faithful files ∅)
    (hname : name ∈ names) {source : Text} (hsource : files.textOf name = .ok source) :
    (t.load name v).1 = .ok () ∧
      (t.load name v).2.1 =
        { t.emptied name with source, loaded := true, fromViews := true } := by
  obtain ⟨hloads, -, -⟩ := load_loads (t := t) hnames hv hname
  generalize (t.load name v).1 = result at hloads
  generalize (t.load name v).2.1 = after at hloads
  cases hloads with
  | refused fault hcheck =>
      simp only [Disk.textOf, hcheck] at hsource
      contradiction
  | missing hcheck htext =>
      rw [htext] at hsource
      contradiction
  | source hcheck text htext =>
      obtain rfl : text = source := Except.ok.inj (htext.symm.trans hsource)
      exact ⟨rfl, rfl⟩
  | saved hcheck nodes hsaved =>
      obtain ⟨maker, hmaker, -⟩ := hsaved
      contradiction

/-- **Making the page of a template saves its tree**, if no tree is saved yet. -/
theorem entry?_compile (hnames : Views.Undisturbed files names) (hv : v.Faithful files ∅)
    (hsaves : 0 < v.maxAge) {path : Path}
    (hpath : Disk.pathOf? (Views.savedName t.name) = some path) (hname : t.name ∈ names)
    (hloaded : t.loaded = true) (hfromViews : t.fromViews = true) (htree : t.tree = none)
    (hsource : files.textOf t.name = .ok t.source) {made : List Node}
    (hmade : files.treeOf t.name = .ok made) :
    Disk.entry? (t.compile v).2.2.disk (Views.savedPath t.name) =
        some (.file (Utf8.encode (SavedTree.write made)) (t.compile v).2.2.now) ∧
      v.Keeps (t.compile v).2.2 := by
  have hload : Loader.Serves (fun w => w.Faithful files ∅ ∧ v.Keeps w) names files.textOf
      Views.load := Views.Faithful.load hnames v
  obtain ⟨hresult, hafter, hkeeps⟩ :=
    Node.parse_gives hload hnames.closed hname hsource v ⟨hv, .refl v⟩
  have htreeOf : files.treeOf t.name = Node.parseWith files.textOf t.source t.name := by
    simp only [Disk.treeOf, hsource]
  rw [← htreeOf, hmade] at hresult
  rcases hrun : Action.run (Node.parse Views.load t.source t.name) v with ⟨result, after⟩
  rw [hrun] at hresult hafter hkeeps
  dsimp only at hresult hafter hkeeps
  subst hresult
  have hsavesAfter : 0 < after.maxAge := by
    rw [hkeeps.maxAge]
    exact hsaves
  -- the name is not refused, and no tree is current
  have hinside : Disk.isInside t.name = true := by
    by_contra hinside
    simp only [Disk.textOf, Views.checkName, if_neg hinside] at hsource
    contradiction
  have hcurrent : after.isCurrent t.name = false := by
    unfold Views.isCurrent
    rw [Views.stat?_savedName hpath, Views.savedPath, hafter.entry?_of_empty]
  have hsaveTree : t.saveTree made after = after.save t.name made := by
    unfold saveTree Views.saves
    rw [decide_eq_true hsavesAfter, hfromViews, hinside, hcurrent]
    rfl
  have hparse : Action.run t.parse v =
      (.ok { t with tree := some made }, after.save t.name made) := by
    unfold parse
    rw [htree]
    dsimp only
    rw [if_pos hloaded, Action.run_bind, hrun, ← hsaveTree]
    rfl
  have hcompile : (t.compile v).2.2 = after.save t.name made := by
    unfold compile
    rw [hparse]
    dsimp only
    split
    · rfl
    · rfl
  have hkeepsSave := Views.keeps_save after t.name made
  rw [hcompile, hkeepsSave.now]
  exact ⟨Views.entry?_save hafter hsavesAfter hpath made, hkeeps.trans hkeepsSave⟩

/-- A template that is loaded with nothing in memory has the tree that is saved for it. -/
theorem load_of_savedTree (hcheck : Views.checkName name = .ok ()) (hrecent : v.recent.kept = [])
    {nodes : List Node} (hsaved : v.savedTree name = (some nodes, v)) :
    t.load name v =
      (.ok (), { t.emptied name with tree := some nodes, loaded := true, fromViews := true }, v) := by
  have hrecalled : v.recalled name = (none, v) := by
    unfold Views.recalled
    split
    · rfl
    · rename_i entry hentry
      have hfind : v.recent.find name entry.modified = (none, v.recent) := by
        simp only [Recent.find, hrecent, List.find?_nil]
      rw [hfind]
      rfl
  unfold load
  rw [hcheck]
  dsimp only
  rw [hrecalled]
  dsimp only
  rw [hsaved]

end Template

namespace Desk

/-- The first template is opened and its page made, which saves its tree. -/
theorem entry?_run (hnames : Views.Undisturbed files names) {views : Views}
    (hv : views.Faithful files ∅) (hsaves : 0 < views.maxAge) {maker : Text}
    (hmaker : maker ∈ names) {path : Path}
    (hpath : Disk.pathOf? (Views.savedName maker) = some path) {made : List Node}
    (hmade : files.treeOf maker = .ok made) :
    Disk.entry? (run { views } [.openAt 0 maker, .compile 0]).views.disk (Views.savedPath maker) =
      some (.file (Utf8.encode (SavedTree.write made))
        (run { views } [.openAt 0 maker, .compile 0]).views.now) := by
  obtain ⟨source, hsource⟩ := Disk.textOf_of_treeOf hmade
  obtain ⟨-, hviews, hkeeps⟩ := Template.load_loads (t := {}) hnames hv hmaker
  obtain ⟨hresult, hloaded⟩ := Template.load_of_empty (t := {}) hnames hv hmaker hsource
  rcases hload : Template.load {} maker views with ⟨result, t, after⟩
  rw [hload] at hviews hkeeps hresult hloaded
  dsimp only at hviews hkeeps hresult hloaded
  subst hresult
  have hsavesAfter : 0 < after.maxAge := by
    rw [hkeeps.maxAge]
    exact hsaves
  have hname : t.name = maker := congrArg Template.name hloaded
  have hfound : t.loaded = true := congrArg Template.loaded hloaded
  have hfromViews : t.fromViews = true := congrArg Template.fromViews hloaded
  have htree : t.tree = none := congrArg Template.tree hloaded
  have htext : files.textOf t.name = .ok t.source := by
    rw [hname, hsource]
    exact congrArg Except.ok (congrArg Template.source hloaded).symm
  rw [← hname] at hpath hmaker hmade
  have hsaved := Template.entry?_compile hnames hviews hsavesAfter hpath hmaker hfound hfromViews
    htree htext hmade
  have hrun : (run { views } [.openAt 0 maker, .compile 0]).views = (t.compile after).2.2 := by
    simp only [run, step, hload, put_slots, if_true]
    rfl
  rw [hrun, ← hname]
  exact hsaved.1

/-- After the views have been replaced, the second template finds that tree. -/
theorem slots_run {d : Desk} {maxAge : Int} (hmaxAge : 0 < maxAge) {other : Text} {path : Path}
    (hcheck : Views.checkName other = .ok ())
    (hpath : Disk.pathOf? (Views.savedName other) = some path) {made : List Node}
    (hread : SavedTree.read? (SavedTree.write made) = some made)
    (hentry : d.views.disk.entry? (Views.savedPath other) =
      some (.file (Utf8.encode (SavedTree.write made)) d.views.now)) (constants : Constants) :
    (run d [.renew maxAge 1 constants, .openAt 1 other]).slots 1 =
      { Template.emptied {} other with tree := some made, loaded := true, fromViews := true } := by
  obtain ⟨views, hmake⟩ :
      ∃ views, Views.make d.views.disk d.views.now maxAge 1 constants = .ok views :=
    ⟨_, Views.make_eq one_ne_zero _ _ _ _⟩
  have hnow : views.now = d.views.now := by rw [Views.eq_of_make hmake]
  have hage : views.maxAge = maxAge := by rw [Views.eq_of_make hmake]
  have hrecent : views.recent.kept = [] := by rw [Views.eq_of_make hmake]
  have hne : Views.savedPath other ≠ [Views.savedFolder] := by simp [Views.savedPath]
  rw [← Views.entry?_make hmake hne, ← hnow] at hentry
  rw [← hage] at hmaxAge
  have hsaved := Views.savedTree_of_entry hmaxAge hpath hentry hread
  have hload := Template.load_of_savedTree (t := {}) hcheck hrecent hsaved
  simp only [run, step, hmake, hload, put_slots, if_true]

/-- **A template gets the tree of another one if and only if they share a saved file.** The tree
of the other one has to be one that can be saved and read, and different from its own. -/
theorem tree_shared_iff (hnames : Views.Undisturbed files names)
    (hempty : ∀ file, files.entry? [Views.savedFolder, file] = none) {now maxAge : Int}
    {capacity : Nat} {constants : Constants} {views : Views} (hmaxAge : 0 < maxAge)
    (hviews : Views.make files now maxAge capacity constants = .ok views) {maker other : Text}
    (hmaker : maker ∈ names) (hother : other ∈ names) {path : Path}
    (hpath : Disk.pathOf? (Views.savedName maker) = some path) {made : List Node}
    (hmade : files.treeOf maker = .ok made)
    (hread : SavedTree.read? (SavedTree.write made) = some made)
    (hcheck : Views.checkName other = .ok ())
    (hown : ∀ own, files.treeOf other = .ok own →
      own ≠ made ∧ SavedTree.read? (SavedTree.write own) ≠ some made) :
    (∃ steps, Opens {maker, other} steps ∧ ∃ slot,
        ((run { views } steps).slots slot).name = other ∧
          ((run { views } steps).slots slot).tree = some made) ↔
      Views.savedFile maker = Views.savedFile other := by
  constructor
  · rintro ⟨steps, hsteps, slot, hname, htree⟩
    have hsub : ({maker, other} : Set Text) ⊆ names := by
      rintro name (rfl | rfl)
      · exact hmaker
      · exact hother
    rcases tree_of_run hnames hsub hempty hviews hsteps htree with hnodes | hsaved
    · rw [hname] at hnodes
      exact absurd rfl (hown made hnodes).1
    · rw [hname] at hsaved
      obtain ⟨name, rfl | rfl, hfile, nodes, hnodes, hreadNodes⟩ := hsaved
      · exact hfile
      · exact absurd hreadNodes (hown nodes hnodes).2
  · intro hfile
    -- make the page of the first, replace the views, and open the second
    have hv : views.Faithful files ∅ := Views.Faithful.of_make hnames hempty hviews
    have hsaves : 0 < views.maxAge := by
      rw [Views.eq_of_make hviews]
      exact hmaxAge
    have hentry := entry?_run hnames hv hsaves hmaker hpath hmade
    -- the names of both saved files are the same
    have hsavedName : Views.savedName maker = Views.savedName other := by
      rw [Views.savedName, Views.savedName, hfile]
    have hsavedPath : Views.savedPath maker = Views.savedPath other := by
      rw [Views.savedPath, Views.savedPath, hfile]
    rw [hsavedPath] at hentry
    rw [hsavedName] at hpath
    have hslot := slots_run hmaxAge hcheck hpath hread hentry constants
    refine ⟨[.openAt 0 maker, .compile 0, .renew maxAge 1 constants, .openAt 1 other], ?_, 1,
      ?_, ?_⟩
    · intro s hs name hname
      simp only [List.mem_cons, List.not_mem_nil, or_false] at hs
      rcases hs with rfl | rfl | rfl | rfl
      · exact .inl (Option.some.inj hname).symm
      · contradiction
      · contradiction
      · exact .inr (Option.some.inj hname).symm
    · exact congrArg Template.name hslot
    · exact congrArg Template.tree hslot

/-- Two templates that share a saved file: one in a folder, and one with an underscore for the
slash. -/
def sharingFiles : Disk :=
  { entries := [(["a"], .folder 5), (["a", "b"], .file (Utf8.encode "A") 10),
      (["a_b"], .file (Utf8.encode "B") 10)] }

/-- Neither of their names is refused, and both are names of files, but the page that is made of
the second one after the first one is that of the first one. -/
theorem page_of_other_template :
    Views.checkName "a/b" = .ok () ∧ Views.checkName "a_b" = .ok () ∧
      Disk.pathOf? "a/b" ≠ Disk.pathOf? "a_b" ∧
      sharingFiles.textOf "a/b" = .ok "A" ∧ sharingFiles.textOf "a_b" = .ok "B" ∧
      Views.savedFile "a/b" = Views.savedFile "a_b" ∧
      ∃ views, Views.make sharingFiles 100 300 2 [] = .ok views ∧
        answers { views } [.openAt 0 "a/b", .compile 0, .openAt 1 "a_b", .compile 1] =
          [.loaded (.ok ()), .page (.ok "A"), .loaded (.ok ()), .page (.ok "A")] := by
  have hviews := Views.make_eq (show 2 ≠ 0 by decide) sharingFiles 100 300 []
  refine ⟨by decide +kernel, by decide +kernel, by decide +kernel, by decide +kernel,
    by decide +kernel, by decide +kernel, _, hviews, by decide +kernel⟩

/-- One of the two gets the tree of the other in some run. -/
theorem tree_shared_iff_sample :
    ∃ views, Views.make sharingFiles 100 300 2 [] = .ok views ∧
      ∃ steps, Opens {"a/b".toList, "a_b".toList} steps ∧ ∃ slot,
        ((run { views } steps).slots slot).name = "a_b" ∧
          ((run { views } steps).slots slot).tree = some [.text "A"] := by
  have hnames : Views.Undisturbed sharingFiles {name | name ∈ ["a/b".toList, "a_b".toList]} :=
    Views.undisturbed_of_list (by decide +kernel) (by decide +kernel) (by decide +kernel)
  have hmade : sharingFiles.treeOf "a/b" = .ok [.text "A"] := rfl
  have hread : SavedTree.read? (SavedTree.write [.text "A"]) = some [.text "A"] := rfl
  have hown : ∀ own, sharingFiles.treeOf "a_b" = .ok own →
      own ≠ [.text "A"] ∧ SavedTree.read? (SavedTree.write own) ≠ some [.text "A"] := by
    intro own hown
    obtain rfl : [.text "B"] = own := Except.ok.inj hown
    have hreadOwn : SavedTree.read? (SavedTree.write [.text "B"]) = some [.text "B"] := rfl
    rw [hreadOwn]
    simp
  have hpath : Disk.pathOf? (Views.savedName "a/b") = some (Views.savedPath "a/b") := by
    decide +kernel
  have hviews := Views.make_eq (show 2 ≠ 0 by decide) sharingFiles 100 300 []
  have hfile : Views.savedFile "a/b" = Views.savedFile "a_b" := by decide +kernel
  refine ⟨_, hviews, ?_⟩
  exact (tree_shared_iff hnames (fun _ => rfl) (by decide) hviews (by simp) (by simp) hpath hmade
    hread (by decide +kernel) hown).mpr hfile

end Desk
end PageServer
