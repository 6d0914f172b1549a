/-
# Looking for a saved tree

A saved tree is used if its file is there, is not out of date, and is text from
which a tree is read. Otherwise nothing is found, and the file is removed if it
is out of date or text of no tree.

* `Views.withoutSaved`: the views without the file of a saved tree
* `Views.Looks`, `Views.savedTree_looks`: the ways in which looking for one ends
-/
import PageServer.Proofs.Views.Disk

namespace PageServer.Views

variable {v : Views} {name : Text}

/-- The views without the file of the saved tree of a template. -/
def withoutSaved (v : Views) (name : Text) : Views :=
  { v with disk := v.disk.remove (savedPath name) }

/-- How looking for the saved tree of a template ends: what is found, and the views afterwards. -/
inductive Looks (v : Views) (name : Text) : Option (List Node) × Views → Prop
  /-- No trees are saved, or there is no file. -/
  | missing (h : 0 < v.maxAge → ∀ content time,
      v.disk.stat? (savedName name) ≠ some (.file content time)) : Looks v name (none, v)
  /-- The tree is out of date. -/
  | expired (content : Bytes) (time : Int) (hsaves : 0 < v.maxAge)
    (hfile : v.disk.stat? (savedName name) = some (.file content time))
    (h : v.isExpired name time = true) : Looks v name (none, v.withoutSaved name)
  /-- The file is no text. -/
  | unreadable (content : Bytes) (time : Int) (hsaves : 0 < v.maxAge)
    (hfile : v.disk.stat? (savedName name) = some (.file content time))
    (hfresh : v.isExpired name time = false) (h : Utf8.decode? content = none) :
    Looks v name (none, v)
  /-- The text is that of no tree. -/
  | garbled (content : Bytes) (time : Int) (text : Text) (hsaves : 0 < v.maxAge)
    (hfile : v.disk.stat? (savedName name) = some (.file content time))
    (hfresh : v.isExpired name time = false) (htext : Utf8.decode? content = some text)
    (h : SavedTree.read? text = none) : Looks v name (none, v.withoutSaved name)
  /-- The tree is used. -/
  | used (content : Bytes) (time : Int) (text : Text) (nodes : List Node) (hsaves : 0 < v.maxAge)
    (hfile : v.disk.stat? (savedName name) = some (.file content time))
    (hfresh : v.isExpired name time = false) (htext : Utf8.decode? content = some text)
    (h : SavedTree.read? text = some nodes) : Looks v name (some nodes, v)

/-- A file is removed with the saved tree. -/
theorem removeSaved_of_stat? {entry : Entry} (h : v.disk.stat? (savedName name) = some entry) :
    v.removeSaved name = v.withoutSaved name := by
  obtain ⟨path, hpath, -⟩ := Disk.of_stat? h
  rw [removeSaved, hpath, pathOf?_savedName hpath]
  rfl

/-- A folder is never removed. -/
theorem withoutSaved_of_folder {made : Int}
    (h : v.disk.stat? (savedName name) = some (.folder made)) : v.withoutSaved name = v := by
  obtain ⟨path, hpath, hentry⟩ := Disk.of_stat? h
  obtain rfl := pathOf?_savedName hpath
  have hremove : v.disk.remove (savedPath name) = v.disk := by simp only [Disk.remove, hentry]
  rw [withoutSaved, hremove]

/-- **Looking for a saved tree ends in one of these ways**: it is used, nothing happens, or its file
is removed. -/
theorem savedTree_looks (v : Views) (name : Text) : Looks v name (v.savedTree name) := by
  unfold savedTree
  split
  · rename_i hsaves
    refine .missing fun hpositive => ?_
    simp [saves, hpositive] at hsaves
  · rename_i hsaves
    replace hsaves : 0 < v.maxAge := by simpa [saves] using hsaves
    split
    · rename_i hnone
      refine .missing fun _ content time hfile => ?_
      rw [hnone] at hfile
      contradiction
    · rename_i entry hstat
      rw [removeSaved_of_stat? hstat]
      cases entry with
      | folder made =>
          have hmissing : Looks v name (none, v) := by
            refine .missing fun _ content time hfile => ?_
            rw [hstat] at hfile
            exact Entry.noConfusion (Option.some.inj hfile)
          rw [withoutSaved_of_folder hstat]
          split <;> exact hmissing
      | file content time =>
          split
          · rename_i hexpired
            exact .expired content time hsaves hstat hexpired
          · rename_i hfresh
            replace hfresh := Bool.eq_false_iff.mpr hfresh
            dsimp only
            split
            · rename_i hnone
              exact .unreadable content time hsaves hstat hfresh hnone
            · rename_i text htext
              split
              · rename_i nodes hread
                exact .used content time text nodes hsaves hstat hfresh htext hread
              · rename_i hread
                exact .garbled content time text hsaves hstat hfresh htext hread

end PageServer.Views
