/-
# What stands on a disk after a change

A change of a disk touches one path and leaves what stands under all others.
The file of a saved tree lies directly in its folder, under a name without a
slash.

* `Disk.entry?_put`, `Disk.entry?_remove`: one entry after a change
* `Disk.addFolders?_singleton`, `Disk.write_cases`: folders and files
* `Views.pathOf?_savedName`, `Views.stat?_savedName`: the path of a saved tree, and its file
-/
import PageServer.Proofs.Text.Basic
import PageServer.Views.Store

namespace PageServer

namespace Disk

/-! ## One entry -/

/-- Leaving out one path does not change what stands under another. -/
theorem lookup_filter_ne {path other : Path} (h : other ≠ path)
    (entries : List (Path × Entry)) :
    (entries.filter fun entry => decide (entry.1 ≠ path)).lookup other = entries.lookup other := by
  induction entries with
  | nil => rfl
  | cons entry rest ih =>
      obtain ⟨place, found⟩ := entry
      by_cases hplace : place = path
      · have hother : (other == place) = false := by
          rw [hplace]
          exact beq_eq_false_iff_ne.mpr h
        rw [List.filter_cons_of_neg (by simp [hplace]), ih, List.lookup_cons, hother]
      · rw [List.filter_cons_of_pos (by simp [hplace]), List.lookup_cons, List.lookup_cons, ih]

/-- Nothing is left under a path that is left out. -/
theorem lookup_filter_self (path : Path) (entries : List (Path × Entry)) :
    (entries.filter fun entry => decide (entry.1 ≠ path)).lookup path = none := by
  rw [List.lookup_eq_none_iff]
  intro entry hentry
  have hne : entry.1 ≠ path := of_decide_eq_true (List.mem_filter.mp hentry).2
  exact bne_iff_ne.mpr (Ne.symm hne)

theorem entry?_nil (disk : Disk) : disk.entry? [] = some (.folder 0) := rfl

/-- What stands under a path is among the entries. -/
theorem mem_of_entry? {disk : Disk} {path : Path} {entry : Entry}
    (h : disk.entry? path = some entry) (hpath : path ≠ []) : (path, entry) ∈ disk.entries := by
  have hempty : path.isEmpty = false := by simpa using hpath
  unfold entry? at h
  rw [hempty, if_neg Bool.false_ne_true] at h
  obtain ⟨before, rest, hentries, -⟩ := List.lookup_eq_some_iff.mp h
  rw [hentries]
  simp

/-- For a disk that is given by its entries, it can be computed that no file is of a time to
come. -/
theorem le_of_entries {disk : Disk} {now : Int}
    (h : ∀ entry ∈ disk.entries, entry.2.modified ≤ now) (path : Path) (content : Bytes)
    (time : Int) (hfile : disk.entry? path = some (.file content time)) : time ≤ now := by
  have hpath : path ≠ [] := by
    rintro rfl
    rw [entry?_nil] at hfile
    exact Entry.noConfusion (Option.some.inj hfile)
  have hmem := mem_of_entry? hfile hpath
  exact h _ hmem

/-- Putting an entry changes what stands under its path only. -/
theorem entry?_put {path : Path} (hpath : path ≠ []) (disk : Disk) (entry : Entry)
    (other : Path) :
    Disk.entry? (disk.put path entry) other =
      if other = path then some entry else disk.entry? other := by
  by_cases hother : other = path
  · subst hother
    have hempty : other.isEmpty = false := by simpa using hpath
    rw [if_pos rfl, entry?, hempty, if_neg Bool.false_ne_true]
    simp [put]
  · rw [if_neg hother, entry?, entry?]
    have hkey : (other == path) = false := beq_eq_false_iff_ne.mpr hother
    simp only [put, List.lookup_cons, hkey, lookup_filter_ne hother]

/-- A file that is removed is gone, and nothing else is. -/
theorem entry?_remove_file {disk : Disk} {path : Path} {content : Bytes} {time : Int}
    (h : disk.entry? path = some (.file content time)) (place : Path) :
    Disk.entry? (disk.remove path) place = if place = path then none else disk.entry? place := by
  have hpath : path ≠ [] := by
    rintro rfl
    rw [entry?_nil] at h
    exact Entry.noConfusion (Option.some.inj h)
  have hempty : path.isEmpty = false := by simpa using hpath
  unfold remove
  rw [h]
  dsimp only
  split_ifs with hplace
  · rw [hplace, entry?, hempty, if_neg Bool.false_ne_true, lookup_filter_self]
  · unfold entry?
    rw [lookup_filter_ne hplace]

/-- Removing a file changes what stands under its path only. -/
theorem entry?_remove (disk : Disk) (path other : Path) :
    Disk.entry? (disk.remove path) other = disk.entry? other ∨
      other = path ∧ Disk.entry? (disk.remove path) other = none := by
  cases hentry : disk.entry? path with
  | none =>
      left
      simp only [remove, hentry]
  | some entry =>
      cases entry with
      | folder made =>
          left
          simp only [remove, hentry]
      | file content time =>
          rw [entry?_remove_file hentry]
          split_ifs with hother
          · exact .inr ⟨hother, rfl⟩
          · exact .inl rfl

/-! ## Folders and files -/

/-- One folder is made unless there is one; a file is in the way. -/
theorem addFolders?_singleton (disk : Disk) (now : Int) (name : Text) :
    disk.addFolders? now [name] =
      match disk.entry? [name] with
      | some (.folder _) => some disk
      | some (.file ..) => none
      | none => some (disk.put [name] (.folder now)) := by
  have hstarts : disk.addFolders? now [name] =
      (match disk.entry? [name] with
        | some (.folder _) => some disk
        | some (.file ..) => none
        | none => some (disk.put [name] (.folder now))) >>= some := rfl
  rw [hstarts]
  exact bind_pure _

/-- Making folders puts a folder under starts of the path where nothing was, and changes nothing
else. -/
theorem entry?_addFolders? {disk made : Disk} {now : Int} {path : Path}
    (h : disk.addFolders? now path = some made) (place : Path) :
    made.entry? place = disk.entry? place ∨
      disk.entry? place = none ∧ made.entry? place = some (.folder now) ∧
        place ≠ [] ∧ place <+: path := by
  have hstarts : ∀ start ∈ (List.range path.length).map fun n => path.take (n + 1),
      start ≠ [] ∧ start <+: path := by
    intro start hstart
    obtain ⟨n, hn, rfl⟩ := List.mem_map.mp hstart
    have hlength : n < path.length := List.mem_range.mp hn
    refine ⟨?_, List.take_prefix (n + 1) path⟩
    apply List.ne_nil_of_length_pos
    rw [List.length_take]
    omega
  unfold addFolders? at h
  -- induction on the starts that are left, over the disk so far
  revert h hstarts
  generalize (List.range path.length).map (fun n => path.take (n + 1)) = starts
  intro h hstarts
  induction starts generalizing disk with
  | nil =>
      obtain rfl := Option.some.inj h
      exact .inl rfl
  | cons start rest ih =>
      obtain ⟨⟨hne, hbelow⟩, hrest⟩ := List.forall_mem_cons.mp hstarts
      rw [List.foldlM_cons] at h
      obtain ⟨next, hnext, hmade⟩ := Option.bind_eq_some_iff.mp h
      have hafter := ih hmade hrest
      split at hnext
      · obtain rfl := Option.some.inj hnext
        exact hafter
      · contradiction
      · rename_i hnone
        obtain rfl := Option.some.inj hnext
        rw [entry?_put hne] at hafter
        split_ifs at hafter with hplace
        · subst hplace
          rcases hafter with hsame | ⟨hnone', -⟩
          · exact .inr ⟨hnone, hsame, hne, hbelow⟩
          · contradiction
        · exact hafter

/-- Writing a file puts it under its path or changes nothing; a folder stays a folder. -/
theorem write_cases (disk : Disk) (path : Path) (content : Bytes) (time : Int) :
    disk.write path content time = disk ∨
      (path ≠ [] ∧ (∀ made, disk.entry? path ≠ some (.folder made)) ∧
        disk.write path content time = disk.put path (.file content time)) := by
  unfold write
  split
  · exact .inl rfl
  · rename_i hother
    right
    refine ⟨?_, ?_, rfl⟩
    · rintro rfl
      exact hother 0 (entry?_nil disk)
    · intro made hmade
      exact hother made hmade
  · exact .inl rfl

/-! ## Files under names -/

/-- The path and the entry behind what is found under a name. -/
theorem of_stat? {disk : Disk} {name : Text} {entry : Entry} (h : disk.stat? name = some entry) :
    ∃ path, pathOf? name = some path ∧ disk.entry? path = some entry := by
  unfold stat? at h
  split at h
  · contradiction
  · rename_i path hpath
    refine ⟨path, hpath, ?_⟩
    split at h
    · rename_i content time hentry
      split_ifs at h
      rw [hentry]
      exact h
    · exact h

/-- Two disks with the same entry under the path of a name show the same under the name. -/
theorem stat?_congr {disk other : Disk} {name : Text} {path : Path}
    (hpath : pathOf? name = some path) (h : disk.entry? path = other.entry? path) :
    disk.stat? name = other.stat? name := by
  simp only [stat?, hpath, h]

/-- Nothing is found under a name without a path. -/
theorem stat?_of_pathOf?_none {name : Text} (disk : Disk) (h : pathOf? name = none) :
    disk.stat? name = none := by
  simp only [stat?, h]

/-- What is found under a name depends on what stands under its path only. -/
theorem stat?_eq {disk other : Disk} {name : Text}
    (h : ∀ path, pathOf? name = some path → other.entry? path = disk.entry? path) :
    other.stat? name = disk.stat? name := by
  cases hpath : pathOf? name with
  | none => rw [stat?_of_pathOf?_none _ hpath, stat?_of_pathOf?_none _ hpath]
  | some path => exact stat?_congr hpath (h path hpath)

end Disk

/-! ## The places of saved trees -/

namespace Views

/-- The name of the file of a saved tree is a single part of a path. -/
theorem slash_not_mem_savedFile (name : Text) : '/' ∉ savedFile name := by
  intro hmem
  rcases List.mem_append.mp hmem with hstart | hname
  · exact absurd hstart (by decide)
  · obtain ⟨c, -, hc⟩ := List.mem_map.mp hname
    split_ifs at hc with hsep
    · exact absurd hc (by decide)
    · exact hsep (.inl hc)

/-- The path of the file in which the tree of a template is saved. -/
def savedPath (name : Text) : Path := [savedFolder, savedFile name]

/-- The folder of the saved trees is no saved file. -/
theorem savedPath_ne_folder (name : Text) : savedPath name ≠ [savedFolder] := by
  simp [savedPath]

theorem savedFile_ne_nil (name : Text) : savedFile name ≠ [] := by
  intro h
  exact List.cons_ne_nil _ _ h

theorem savedFile_ne_dot (name : Text) : savedFile name ≠ ".".toList := by
  intro h
  have hfirst : some 'p' = some '.' := congrArg List.head? h
  exact absurd hfirst (by decide)

/-- The parts of the name of a saved tree. -/
theorem splitOn_savedName (name : Text) :
    Text.splitOn '/' (savedName name) = savedPath name := by
  have hfolder : '/' ∉ savedFolder := by decide
  rw [savedName, Text.splitOn_cons_of_not_mem hfolder,
    Text.splitOn_of_not_mem (slash_not_mem_savedFile name)]
  rfl

/-- **A saved tree lies directly in the folder of the saved trees**, if its name is possible. -/
theorem pathOf?_savedName {name : Text} {path : Path}
    (h : Disk.pathOf? (savedName name) = some path) : path = savedPath name := by
  unfold Disk.pathOf? at h
  split_ifs at h
  rw [← Option.some.inj h, Disk.parts, splitOn_savedName]
  refine List.filter_eq_self.mpr ?_
  intro part hpart
  rcases List.mem_cons.mp hpart with rfl | hlast
  · decide
  · obtain rfl := List.mem_singleton.mp hlast
    have hnil := savedFile_ne_nil name
    have hdot := savedFile_ne_dot name
    rw [Bool.and_eq_true, Bool.not_eq_true', decide_eq_true_eq, List.isEmpty_eq_false_iff]
    exact ⟨hnil, hdot⟩

/-- The file of a saved tree is found under its name. -/
theorem stat?_savedName {disk : Disk} {name : Text} {path : Path}
    (hpath : Disk.pathOf? (savedName name) = some path) :
    disk.stat? (savedName name) = disk.entry? (savedPath name) := by
  obtain rfl := pathOf?_savedName hpath
  have hlast : Disk.asksForFolder (savedName name) = false := by
    have hnil : (savedFile name).isEmpty = false :=
      List.isEmpty_eq_false_iff.mpr (savedFile_ne_nil name)
    have hdot : decide (savedFile name = ".".toList) = false :=
      decide_eq_false (savedFile_ne_dot name)
    unfold Disk.asksForFolder
    rw [splitOn_savedName]
    show ((savedFile name).isEmpty || decide (savedFile name = ".".toList)) = false
    rw [hnil, hdot]
    rfl
  unfold Disk.stat?
  rw [hpath]
  dsimp only
  split
  · rename_i content time hentry
    rw [hlast, hentry]
    rfl
  · rfl

end Views
end PageServer
