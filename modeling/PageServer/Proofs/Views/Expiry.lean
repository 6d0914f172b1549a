/-
# Saved trees and their age

A saved tree may be used while its template has no file, while the file has not
been changed since, or while the tree is younger than the limit. Looking for it
removes its file if it is out of date or if it is text of no tree, and changes
nothing else. A tree that has just been saved may be used.

* `Views.MayUse`, `Views.IsOutdated`: which saved trees may be used
* `Views.savedTree_eq_some_iff`, `Views.removes_iff`: what is found, and what is removed
* `Views.Takes`, `Views.stat?_save`: where a tree can be saved
* `Views.savedTree_rules`: all of this together
-/
import PageServer.Proofs.Views.Faithful
import PageServer.Proofs.Views.Names

namespace PageServer.Views

variable {v : Views} {name : Text}

/-! ## Ages

The clock may count parts of a second: `unit` of its counts make a second, and the limit is that of
some whole seconds. -/

section Ages

variable {unit limit time : Int}

/-- The whole seconds since a time. -/
def secondsSince (v : Views) (unit time : Int) : Int := v.age time / unit

/-- A time to come is not past. -/
theorem secondsSince_of_le (h : v.now ≤ time) : v.secondsSince unit time = 0 := by
  have hage : v.age time = 0 := max_eq_right (sub_nonpos_of_le h)
  rw [secondsSince, hage, Int.zero_ediv]

/-- Whether a tree that was saved at a time is out of date: its template has a file that was
changed later, and the tree is as old as the limit. -/
def IsOutdated (v : Views) (unit limit : Int) (name : Text) (time : Int) : Prop :=
  ∃ entry, v.disk.stat? name = some entry ∧ time < entry.modified ∧
    limit ≤ v.secondsSince unit time

/-- Whether a tree that was saved at a time may be used: its template has no file, or one that was
not changed later, or the tree is younger than the limit. -/
def MayUse (v : Views) (unit limit : Int) (name : Text) (time : Int) : Prop :=
  v.disk.stat? name = none ∨
    (∃ entry, v.disk.stat? name = some entry ∧ entry.modified ≤ time) ∨
    v.secondsSince unit time < limit

/-- Either of both holds. -/
theorem not_isOutdated_iff :
    ¬ v.IsOutdated unit limit name time ↔ v.MayUse unit limit name time := by
  unfold IsOutdated MayUse
  cases v.disk.stat? name with
  | none => simp
  | some entry =>
      simp only [Option.some.injEq, exists_eq_left', not_and, not_le, reduceCtorEq, false_or]
      exact imp_iff_not_or.trans (or_congr_left not_lt)

/-- What is out of date is so by whole seconds. -/
theorem isExpired_iff (hunit : 0 < unit) (hlimit : v.maxAge = limit * unit) :
    v.isExpired name time = true ↔ v.IsOutdated unit limit name time := by
  unfold isExpired IsOutdated
  cases v.disk.stat? name with
  | none => simp
  | some entry =>
      simp only [decide_eq_true_eq, Option.some.injEq, exists_eq_left']
      rw [secondsSince, Int.le_ediv_iff_mul_le hunit, hlimit]

/-- What is not out of date may be used. -/
theorem isExpired_eq_false_iff (hunit : 0 < unit) (hlimit : v.maxAge = limit * unit) :
    v.isExpired name time = false ↔ v.MayUse unit limit name time := by
  rw [← not_isOutdated_iff, ← isExpired_iff hunit hlimit, Bool.not_eq_true]

/-- Trees are saved if the limit is positive. -/
theorem maxAge_pos_iff (hunit : 0 < unit) (hlimit : v.maxAge = limit * unit) :
    0 < v.maxAge ↔ 0 < limit := by
  rw [hlimit]
  exact mul_pos_iff_of_pos_right hunit

/-! ## What is found and what is removed -/

/-- The content of a file is a text from which a tree is read, or none is. -/
def Spells (content : Bytes) (tree : Option (List Node)) : Prop :=
  ∃ text, Utf8.decode? content = some text ∧ SavedTree.read? text = tree

/-- The file of the saved tree of a template is there before and not afterwards. -/
def Removes (name : Text) (v after : Views) : Prop :=
  (∃ entry, v.disk.stat? (savedName name) = some entry) ∧
    after.disk.stat? (savedName name) = none

theorem removes_withoutSaved {content : Bytes}
    (h : v.disk.stat? (savedName name) = some (.file content time)) :
    Removes name v (v.withoutSaved name) := by
  obtain ⟨path, hpath, hentry⟩ := Disk.of_stat? h
  obtain rfl := pathOf?_savedName hpath
  refine ⟨⟨_, h⟩, ?_⟩
  rw [stat?_savedName hpath]
  exact (Disk.entry?_remove_file hentry _).trans (if_pos rfl)

theorem not_removes_self : ¬ Removes name v v := by
  rintro ⟨⟨entry, hentry⟩, hnone⟩
  rw [hnone] at hentry
  contradiction

/-- **A tree is found exactly if trees are saved, it is read from its file, and it may be used.** -/
theorem savedTree_eq_some_iff (hunit : 0 < unit) (hlimit : v.maxAge = limit * unit)
    (nodes : List Node) :
    (v.savedTree name).1 = some nodes ↔
      0 < limit ∧ ∃ content time, v.disk.stat? (savedName name) = some (.file content time) ∧
        Spells content (some nodes) ∧ v.MayUse unit limit name time := by
  rw [← maxAge_pos_iff hunit hlimit]
  have hlooks := v.savedTree_looks name
  generalize v.savedTree name = result at hlooks
  constructor
  · rintro hfound
    cases hlooks with
    | used content time text found hsaves hfile hfresh htext hread =>
        obtain rfl := Option.some.inj hfound
        exact ⟨hsaves, content, time, hfile, ⟨text, htext, hread⟩,
          (isExpired_eq_false_iff hunit hlimit).mp hfresh⟩
    | _ => contradiction
  · rintro ⟨hsaves, content, time, hfile, ⟨text, htext, hread⟩, hfresh⟩
    rw [← isExpired_eq_false_iff hunit hlimit] at hfresh
    cases hlooks with
    | missing hmissing => exact absurd hfile (hmissing hsaves content time)
    | expired _ _ _ hfile' hexpired =>
        cases hfile.symm.trans hfile'
        rw [hfresh] at hexpired
        contradiction
    | unreadable _ _ _ hfile' _ hnone =>
        cases hfile.symm.trans hfile'
        rw [htext] at hnone
        contradiction
    | garbled _ _ _ _ hfile' _ htext' hnone =>
        cases hfile.symm.trans hfile'
        cases htext.symm.trans htext'
        rw [hread] at hnone
        contradiction
    | used _ _ _ _ _ hfile' _ htext' hread' =>
        cases hfile.symm.trans hfile'
        cases htext.symm.trans htext'
        exact hread'.symm.trans hread

/-- **The file is removed exactly if trees are saved, and it is out of date or otherwise text of no
tree.** -/
theorem removes_iff (hunit : 0 < unit) (hlimit : v.maxAge = limit * unit) :
    Removes name v (v.savedTree name).2 ↔
      0 < limit ∧ ∃ content time, v.disk.stat? (savedName name) = some (.file content time) ∧
        (v.IsOutdated unit limit name time ∨
          v.MayUse unit limit name time ∧ Spells content none) := by
  rw [← maxAge_pos_iff hunit hlimit]
  have hlooks := v.savedTree_looks name
  generalize v.savedTree name = result at hlooks
  constructor
  · intro hremoves
    cases hlooks with
    | expired content time hsaves hfile hexpired =>
        exact ⟨hsaves, content, time, hfile, .inl ((isExpired_iff hunit hlimit).mp hexpired)⟩
    | garbled content time text hsaves hfile hfresh htext hread =>
        exact ⟨hsaves, content, time, hfile,
          .inr ⟨(isExpired_eq_false_iff hunit hlimit).mp hfresh, text, htext, hread⟩⟩
    | _ => exact absurd hremoves not_removes_self
  · rintro ⟨hsaves, content, time, hfile, hwhy⟩
    rw [← isExpired_iff hunit hlimit, ← isExpired_eq_false_iff hunit hlimit] at hwhy
    cases hlooks with
    | missing hmissing => exact absurd hfile (hmissing hsaves content time)
    | expired => exact removes_withoutSaved hfile
    | garbled => exact removes_withoutSaved hfile
    | unreadable _ _ _ hfile' hfresh hnone =>
        cases hfile.symm.trans hfile'
        rcases hwhy with hexpired | ⟨-, text, htext, -⟩
        · rw [hfresh] at hexpired
          contradiction
        · rw [hnone] at htext
          contradiction
    | used _ _ _ _ _ hfile' hfresh htext' hread' =>
        cases hfile.symm.trans hfile'
        rcases hwhy with hexpired | ⟨-, text, htext, hread⟩
        · rw [hfresh] at hexpired
          contradiction
        · cases htext.symm.trans htext'
          rw [hread] at hread'
          contradiction

end Ages

/-- **Nothing changes but that the file may be removed.** -/
theorem savedTree_frame (v : Views) (name : Text) :
    (v.savedTree name).2 = v ∨
      Removes name v (v.savedTree name).2 ∧ (v.savedTree name).2 = v.withoutSaved name := by
  have hlooks := v.savedTree_looks name
  generalize v.savedTree name = result at hlooks
  cases hlooks with
  | expired content time hsaves hfile hexpired => exact .inr ⟨removes_withoutSaved hfile, rfl⟩
  | garbled content time text hsaves hfile hfresh htext hread =>
      exact .inr ⟨removes_withoutSaved hfile, rfl⟩
  | _ => exact .inl rfl

/-! ## Saving a tree -/

/-- The tree of a template can be saved: a file system takes the name of its file, no file is in the
place of the folder, and no folder is in the place of the file. -/
structure Takes (v : Views) (name : Text) : Prop where
  possible : Disk.isPossible (savedName name) = true
  folder : ∀ content time, v.disk.entry? [savedFolder] ≠ some (.file content time)
  place : ∀ made, v.disk.entry? (savedPath name) ≠ some (.folder made)

/-- A saved tree stays inside the views, so only its name has to be possible. -/
theorem pathOf?_of_possible (h : Disk.isPossible (savedName name) = true) :
    Disk.pathOf? (savedName name) = some (savedPath name) := by
  have hparts : "..".toList ∉ savedPath name := by
    intro hmem
    rcases List.mem_cons.mp hmem with hfolder | hfile
    · exact absurd hfolder (by decide)
    · have hfirst : some '.' = some 'p' := congrArg List.head? (List.mem_singleton.mp hfile)
      exact absurd hfirst (by decide)
  have hinside : Disk.isInside (savedName name) = true := by
    rw [Disk.isInside_iff, splitOn_savedName]
    exact ⟨List.cons_ne_nil _ _, by simp [savedName, savedFolder], hparts⟩
  have hpath : Disk.pathOf? (savedName name) = some (Disk.parts (savedName name)) := by
    rw [Disk.pathOf?, hinside, h]
    rfl
  rw [hpath, pathOf?_savedName hpath]

theorem possible_of_pathOf? {path : Path} (h : Disk.pathOf? (savedName name) = some path) :
    Disk.isPossible (savedName name) = true := by
  unfold Disk.pathOf? at h
  split_ifs at h with hname
  exact (Bool.and_eq_true_iff.mp hname).2

/-- The folder of the saved trees is there or is made, unless a file is in its place. What is in it
stays. -/
theorem folder_of_addFolders? {disk : Disk}
    (h : v.disk.addFolders? v.now [savedFolder] = some disk) (name : Text) :
    (∀ content time, v.disk.entry? [savedFolder] ≠ some (.file content time)) ∧
      (∃ made, disk.entry? [savedFolder] = some (.folder made)) ∧
      disk.entry? (savedPath name) = v.disk.entry? (savedPath name) := by
  have hne : savedPath name ≠ [savedFolder] := savedPath_ne_folder name
  rw [Disk.addFolders?_singleton] at h
  cases hentry : v.disk.entry? [savedFolder] with
  | none =>
      rw [hentry] at h
      obtain rfl := Option.some.inj h
      have hput := Disk.entry?_put (List.cons_ne_nil savedFolder []) v.disk (.folder v.now)
      exact ⟨nofun, ⟨v.now, (hput _).trans (if_pos rfl)⟩, (hput _).trans (if_neg hne)⟩
  | some entry =>
      rw [hentry] at h
      cases entry with
      | file content time => contradiction
      | folder made =>
          obtain rfl := Option.some.inj h
          exact ⟨nofun, ⟨made, hentry⟩, rfl⟩

/-- **A tree is saved in its file**, with the present time. -/
theorem stat?_save (hsaves : 0 < v.maxAge) (h : v.Takes name) (nodes : List Node) :
    (v.save name nodes).disk.stat? (savedName name) =
      some (.file (Utf8.encode (SavedTree.write nodes)) v.now) := by
  have hpath := pathOf?_of_possible h.possible
  cases hdisk : v.disk.addFolders? v.now [savedFolder] with
  | none =>
      rw [Disk.addFolders?_singleton] at hdisk
      split at hdisk
      · contradiction
      · rename_i content time hfile
        exact absurd hfile (h.folder content time)
      · contradiction
  | some disk =>
      obtain ⟨-, ⟨made, hmade⟩, hsame⟩ := folder_of_addFolders? hdisk name
      have hsave : (v.save name nodes).disk =
          disk.write (savedPath name) (Utf8.encode (SavedTree.write nodes)) v.now := by
        unfold save saves
        rw [decide_eq_true hsaves, hdisk, hpath]
        rfl
      have hwrite : disk.write (savedPath name) (Utf8.encode (SavedTree.write nodes)) v.now =
          disk.put (savedPath name) (.file (Utf8.encode (SavedTree.write nodes)) v.now) := by
        have hparent : (savedPath name).dropLast = [savedFolder] := rfl
        unfold Disk.write
        rw [hparent, hmade]
        split
        · rename_i made' _ hfolder
          exact absurd (hsame.symm.trans hfolder) (h.place made')
        · rfl
        · rename_i hother _
          exact (hother made rfl).elim
      have hne : savedPath name ≠ [] := List.cons_ne_nil _ _
      rw [stat?_savedName hpath, hsave, hwrite, Disk.entry?_put hne, if_pos rfl]

/-- **A tree that can not be saved changes no saved tree.** -/
theorem stat?_save_of_not_takes (h : ¬ v.Takes name) (nodes : List Node) :
    (v.save name nodes).disk.stat? (savedName name) = v.disk.stat? (savedName name) := by
  refine Disk.stat?_eq fun path hpath => ?_
  obtain rfl := pathOf?_savedName hpath
  unfold save
  split
  · rfl
  · split
    · rfl
    · rename_i disk hdisk
      obtain ⟨hfolder, -, hsame⟩ := folder_of_addFolders? hdisk name
      rw [hpath]
      rcases disk.write_cases (savedPath name) (Utf8.encode (SavedTree.write nodes)) v.now with
        hwrite | ⟨-, hplace, -⟩
      · exact (congrArg (Disk.entry? · (savedPath name)) hwrite).trans hsame
      · rw [hsame] at hplace
        exact absurd ⟨possible_of_pathOf? hpath, hfolder, hplace⟩ h

/-! ## All rules -/

/-- A tree that is younger than the limit is what is read from its file, which is removed if none
is. -/
theorem savedTree_of_younger {unit limit time : Int} (hunit : 0 < unit)
    (hlimit : v.maxAge = limit * unit) (hsaves : 0 < limit) {content : Bytes} {text : Text}
    (hfile : v.disk.stat? (savedName name) = some (.file content time))
    (htext : Utf8.decode? content = some text) (hyounger : v.secondsSince unit time < limit) :
    (v.savedTree name).1 = SavedTree.read? text ∧
      (Removes name v (v.savedTree name).2 ↔ SavedTree.read? text = none) := by
  have hmay : v.MayUse unit limit name time := .inr (.inr hyounger)
  constructor
  · ext nodes
    rw [savedTree_eq_some_iff hunit hlimit]
    constructor
    · rintro ⟨-, content', time', hfile', ⟨text', htext', hread⟩, -⟩
      cases hfile.symm.trans hfile'
      cases htext.symm.trans htext'
      exact hread
    · intro hread
      exact ⟨hsaves, content, time, hfile, ⟨text, htext, hread⟩, hmay⟩
  · rw [removes_iff hunit hlimit]
    constructor
    · rintro ⟨-, content', time', hfile', hwhy⟩
      cases hfile.symm.trans hfile'
      rcases hwhy with houtdated | ⟨-, text', htext', hread⟩
      · exact absurd houtdated (not_isOutdated_iff.mpr hmay)
      · cases htext.symm.trans htext'
        exact hread
    · intro hread
      exact ⟨hsaves, content, time, hfile, .inr ⟨hmay, text, htext, hread⟩⟩

/-- **The rules of saved trees.** A tree is found exactly if trees are saved, its file is there and
a tree is read from it, and the template has no file, or one not changed later, or the tree is
younger than the limit; a time to come makes it no second old. Its file is removed exactly if it is
out of date, or otherwise a text that is that of no tree, and nothing else changes. A tree that has
just been saved is in its file, and so is found until the limit, if it can be saved; otherwise the
saved file is as before. -/
theorem savedTree_rules (name : Text) {unit limit : Int} (hunit : 0 < unit)
    (hlimit : v.maxAge = limit * unit) :
    (∀ nodes, (v.savedTree name).1 = some nodes ↔
      0 < limit ∧ ∃ content time, v.disk.stat? (savedName name) = some (.file content time) ∧
        Spells content (some nodes) ∧ v.MayUse unit limit name time) ∧
    (∀ time, v.now ≤ time → v.secondsSince unit time = 0) ∧
    (Removes name v (v.savedTree name).2 ↔
      0 < limit ∧ ∃ content time, v.disk.stat? (savedName name) = some (.file content time) ∧
        (v.IsOutdated unit limit name time ∨
          v.MayUse unit limit name time ∧ Spells content none)) ∧
    ((∀ path, path ≠ savedPath name →
        (v.savedTree name).2.disk.entry? path = v.disk.entry? path) ∧
      { (v.savedTree name).2 with disk := v.disk } = v ∧
      (¬ Removes name v (v.savedTree name).2 → (v.savedTree name).2 = v)) ∧
    ∀ nodes,
      (0 < limit → v.Takes name → ∀ later,
        let stored := { v.save name nodes with now := later }
        stored.disk.stat? (savedName name) =
            some (.file (Utf8.encode (SavedTree.write nodes)) v.now) ∧
          (stored.secondsSince unit v.now < limit →
            (stored.savedTree name).1 = SavedTree.read? (SavedTree.write nodes) ∧
              (Removes name stored (stored.savedTree name).2 ↔
                SavedTree.read? (SavedTree.write nodes) = none))) ∧
      (¬ v.Takes name →
        (v.save name nodes).disk.stat? (savedName name) = v.disk.stat? (savedName name)) := by
  refine ⟨savedTree_eq_some_iff hunit hlimit, fun _ => secondsSince_of_le,
    removes_iff hunit hlimit, ?_, fun nodes => ⟨?_, fun h => stat?_save_of_not_takes h nodes⟩⟩
  · rcases v.savedTree_frame name with hsame | ⟨hremoves, hafter⟩
    · rw [hsame]
      exact ⟨fun _ _ => rfl, rfl, fun _ => rfl⟩
    · refine ⟨fun path hpath => ?_, ?_, fun hkept => absurd hremoves hkept⟩
      · rw [hafter]
        rcases Disk.entry?_remove v.disk (savedPath name) path with hsame | ⟨hplace, -⟩
        · exact hsame
        · exact absurd hplace hpath
      · rw [hafter]
        rfl
  · intro hsaves htakes later stored
    have hfile : stored.disk.stat? (savedName name) =
        some (.file (Utf8.encode (SavedTree.write nodes)) v.now) :=
      stat?_save ((maxAge_pos_iff hunit hlimit).mpr hsaves) htakes nodes
    have hstored : stored.maxAge = limit * unit :=
      (keeps_save v name nodes).maxAge.trans hlimit
    exact ⟨hfile, savedTree_of_younger hunit hstored hsaves hfile (Utf8.decode?_encode _)⟩

/-- Views with a template that has been changed after its tree was saved, with times in billionths
of a second. The tree may be used for three hundred seconds. -/
def changedViews (now : Int) : Views where
  disk.entries := [
    (["a.html"], .file (Utf8.encode "B") 2),
    (savedPath "a.html", .file (Utf8.encode (SavedTree.write [.text "A"])) 1),
    ([savedFolder], .folder 0)]
  now
  recent.capacity := 1
  maxAge := 300 * 10 ^ 9

/-- The tree is used just short of its limit, and its file is removed at the limit. -/
theorem savedTree_rules_sample :
    (0 : Int) < 10 ^ 9 ∧ (∀ now, (changedViews now).maxAge = 300 * 10 ^ 9) ∧
      ((changedViews (300 * 10 ^ 9)).savedTree "a.html").1 = some [.text "A"] ∧
      Removes "a.html" (changedViews (300 * 10 ^ 9 + 1))
        ((changedViews (300 * 10 ^ 9 + 1)).savedTree "a.html").2 := by
  have hunit : (0 : Int) < 10 ^ 9 := by decide
  have hfile (now : Int) : (changedViews now).disk.stat? (savedName "a.html") =
      some (.file (Utf8.encode (SavedTree.write [.text "A"])) 1) := rfl
  have hread : Spells (Utf8.encode (SavedTree.write [.text "A"])) (some [.text "A"]) :=
    ⟨_, Utf8.decode?_encode _, rfl⟩
  have hlimit (now : Int) : (changedViews now).maxAge = 300 * 10 ^ 9 := rfl
  refine ⟨hunit, hlimit, ?_, ?_⟩
  · obtain ⟨hfound, -⟩ := savedTree_rules "a.html" hunit (hlimit (300 * 10 ^ 9))
    exact (hfound _).mpr ⟨by decide, _, _, hfile _, hread, .inr (.inr (by decide))⟩
  · obtain ⟨-, -, hremoves, -⟩ := savedTree_rules "a.html" hunit (hlimit (300 * 10 ^ 9 + 1))
    exact hremoves.mpr ⟨by decide, _, _, hfile _, .inl ⟨_, rfl, by decide, by decide⟩⟩

/-- **Not every tree that is saved is found**: a file may be in the place of the folder, or the name
be too long. -/
theorem saved_nowhere :
    SavedTree.read? (SavedTree.write [.text "A"]) = some [.text "A"] ∧
      (let blocked : Views :=
        { disk.entries := [([savedFolder], .file [] 0)], recent.capacity := 1, maxAge := 300 }
      blocked.disk.stat? (savedName "a.html") = none ∧
        ((blocked.save "a.html" [.text "A"]).savedTree "a.html").1 = none) ∧
      (let views : Views := { disk := {}, recent.capacity := 1, maxAge := 300 }
      let name := List.replicate 300 'a'
      views.disk.stat? (savedName name) = none ∧
        ((views.save name [.text "A"]).savedTree name).1 = none) := by
  refine ⟨rfl, ⟨by decide +kernel, by decide +kernel⟩, by decide +kernel, by decide +kernel⟩

end PageServer.Views
