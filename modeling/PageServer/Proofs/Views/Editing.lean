/-
# Work while files change

The files of a site are edited while someone works with its templates: files
are written, given a time, and deleted between the steps. The disks that follow
one another in a run tell what has been there to be read.

* `Edit`, `Edit.apply`: a change of the files by their author
* `Edit.Changes`, `Edit.changes_apply`: what it changes
* `Desk.Event`, `Desk.handle`, `Desk.after`: work and edits, one after another
* `Desk.slots_handle`: an event leaves the slots alone that it does not work on
* `Desk.trail`: the disks of a run
* `Desk.remembers_after`: what is in memory was on one of them
-/
import PageServer.Proofs.Views.Desk
import PageServer.Proofs.Views.Upkeep

namespace PageServer

/-! ## Edits -/

/-- A change of the files by their author. -/
inductive Edit where
  /-- Writes a file, with the folders it needs. -/
  | write (name : Text) (content : Bytes) (time : Int)
  /-- Gives a file a time. -/
  | touch (name : Text) (time : Int)
  /-- Deletes a file. -/
  | delete (name : Text)

namespace Edit

/-- The disk after an edit. -/
def apply (now : Int) (disk : Disk) : Edit → Disk
  | write name content time => disk.edit now name content time
  | touch name time => disk.touch name time
  | delete name => disk.delete name

/-- The name of the file that is changed. -/
def name : Edit → Text
  | write name _ _ => name
  | touch name _ => name
  | delete name => name

/-- The content that the file gets. -/
def content? : Edit → Option Bytes
  | write _ content _ => some content
  | _ => none

/-- The time that the file gets. -/
def time? : Edit → Option Int
  | write _ _ time => some time
  | touch _ time => some time
  | delete _ => none

/-- What stands under one path before and after an edit at some time. -/
inductive Changes (e : Edit) (now : Int) : Path → Option Entry → Option Entry → Prop
  /-- Nothing happens. -/
  | same (path : Path) (entry : Option Entry) : Changes e now path entry entry
  /-- A folder for the file is made. -/
  | folder (path target : Path) (htarget : Disk.pathOf? e.name = some target) (hpath : path ≠ [])
    (hbelow : path <+: target) : Changes e now path none (some (.folder now))
  /-- The file is written, or gets its time. -/
  | file (path : Path) (entry : Option Entry) (content : Bytes) (time : Int)
    (hpath : Disk.pathOf? e.name = some path) (htime : e.time? = some time)
    (hcontent : ∀ written ∈ e.content?, content = written) :
    Changes e now path entry (some (.file content time))
  /-- The file is removed. -/
  | gone (path : Path) (entry : Option Entry) (hpath : Disk.pathOf? e.name = some path)
    (htime : e.time? = none) : Changes e now path entry none

/-- **What an edit changes.** -/
theorem changes_apply (e : Edit) (now : Int) (disk : Disk) (path : Path) :
    e.Changes now path (disk.entry? path) (Disk.entry? (e.apply now disk) path) := by
  cases e with
  | write name content time =>
      show Changes _ now path _ (Disk.entry? (disk.edit now name content time) path)
      unfold Disk.edit
      cases htarget : Disk.pathOf? name with
      | none => exact .same path _
      | some target =>
          dsimp only
          cases hmade : disk.addFolders? now target.dropLast with
          | none => exact .same path _
          | some made =>
              dsimp only
              -- the folders of the file first
              have hfolders : Changes (.write name content time) now path (disk.entry? path)
                  (made.entry? path) := by
                rcases Disk.entry?_addFolders? hmade path with
                  hsame | ⟨hnone, hfolder, hne, hbelow⟩
                · rw [hsame]
                  exact .same path _
                · rw [hnone, hfolder]
                  exact .folder path target htarget hne
                    (hbelow.trans (List.dropLast_prefix target))
              rcases Disk.write_cases made target content time with hsame | ⟨hne, -, hput⟩
              · rw [hsame]
                exact hfolders
              · rw [hput, Disk.entry?_put hne]
                split_ifs with hpath
                · subst hpath
                  exact .file path _ content time htarget rfl
                    fun written hwritten => Option.some.inj hwritten
                · exact hfolders
  | touch name time =>
      show Changes _ now path _ (Disk.entry? (disk.touch name time) path)
      unfold Disk.touch
      split
      · rename_i target content htarget hread
        have hne : target ≠ [] := by
          rintro rfl
          unfold Disk.read? at hread
          split at hread
          · rename_i found made hstat
            obtain ⟨place, hplace, hentry⟩ := Disk.of_stat? hstat
            obtain rfl := Option.some.inj (htarget.symm.trans hplace)
            rw [Disk.entry?_nil] at hentry
            exact Entry.noConfusion (Option.some.inj hentry)
          · contradiction
        rw [Disk.entry?_put hne]
        split_ifs with hpath
        · subst hpath
          exact .file path _ content time htarget rfl fun written hwritten => by contradiction
        · exact .same path _
      · exact .same path _
  | delete name =>
      show Changes _ now path _ (Disk.entry? (disk.delete name) path)
      unfold Disk.delete
      cases htarget : Disk.pathOf? name with
      | none => exact .same path _
      | some target =>
          rcases Disk.entry?_remove disk target path with hsame | ⟨rfl, hgone⟩
          · dsimp only
            rw [hsame]
            exact .same path _
          · dsimp only
            rw [hgone]
            exact .gone path _ htarget rfl

/-- An edit outside the folder of the saved trees leaves what is in it alone. -/
theorem Changes.eq_of_saved {e : Edit} {now : Int} {path : Path} {entry entry' : Option Entry}
    (h : e.Changes now path entry entry') (he : Views.IsOutside e.name)
    (hpath : Views.IsSaved path) : entry' = entry := by
  cases h with
  | same => rfl
  | folder target htarget hne hbelow =>
      obtain ⟨rest, rfl⟩ := hbelow
      refine absurd ?_ (he _ htarget)
      rw [Views.IsSaved, List.head?_append_of_ne_nil _ hne]
      exact hpath
  | file _ content time htarget => exact absurd hpath (he path htarget)
  | gone _ htarget => exact absurd hpath (he path htarget)

end Edit

namespace Desk

/-! ## Events -/

/-- What happens to a desk. -/
inductive Event where
  /-- A step of the work with templates. -/
  | work (s : Step)
  /-- A text is loaded as an include tag does it. -/
  | source (name : Text)
  /-- The saved tree of a template is looked up. -/
  | lookUp (name : Text)
  /-- The files are edited. -/
  | edit (e : Edit)

/-- What is answered. -/
inductive Reply where
  /-- The answer of a step; an edit answers nothing. -/
  | answer (a : Answer)
  /-- A text. -/
  | text (result : Except Fault Text)
  /-- A saved tree, if there is one. -/
  | tree (found : Option (List Node))

/-- One event. -/
def handle (d : Desk) : Event → Reply × Desk
  | .work s => (.answer (d.step s).1, (d.step s).2)
  | .source name =>
    let (result, views) := Action.run (Views.load name) d.views
    (.text result, { d with views })
  | .lookUp name =>
    let (found, views) := d.views.savedTree name
    (.tree found, { d with views })
  | .edit e =>
    (.answer .nothing,
      { d with views := { d.views with disk := e.apply d.views.now d.views.disk } })

/-- The desk after some events. -/
def after : Desk → List Event → Desk
  | d, [] => d
  | d, e :: rest => after (d.handle e).2 rest

/-- The disks of a run, from the first to the last. -/
def trail : Desk → List Event → List Disk
  | d, [] => [d.views.disk]
  | d, e :: rest => d.views.disk :: trail (d.handle e).2 rest

variable {d : Desk} {Q : Kept → Prop}

/-- The trail ends with the disk at the end. -/
theorem trail_eq (d : Desk) (events : List Event) :
    ∃ earlier, d.trail events = earlier ++ [(d.after events).views.disk] := by
  induction events generalizing d with
  | nil => exact ⟨[], rfl⟩
  | cons e rest ih =>
      obtain ⟨earlier, hrest⟩ := ih (d.handle e).2
      refine ⟨d.views.disk :: earlier, ?_⟩
      rw [trail, hrest]
      rfl

/-- The trail starts with the disk at the start. -/
theorem mem_trail (d : Desk) (events : List Event) : d.views.disk ∈ d.trail events := by
  cases events with
  | nil => exact List.mem_singleton_self _
  | cons e rest => exact List.mem_cons_self

/-! ## Views after a step -/

theorem views_openAt (d : Desk) (slot : Nat) (name : Text) :
    (d.step (.openAt slot name)).2.views = (Template.load {} name d.views).2.2 := by
  simp only [step]
  split
  · rename_i t views hload
    rw [hload]
    rfl
  · rename_i fault t views hload
    rw [hload]

theorem views_renew (d : Desk) (maxAge : Int) (capacity : Nat) (constants : Constants) :
    (d.step (.renew maxAge capacity constants)).2.views = d.views ∨
      Views.make d.views.disk d.views.now maxAge capacity constants =
        .ok (d.step (.renew maxAge capacity constants)).2.views := by
  simp only [step]
  split
  · rename_i views hmake
    exact .inr hmake
  · exact .inl rfl

/-! ## Slots after an event -/

/-- The slot that an event works on, if any. -/
def Event.slot? : Event → Option Nat
  | .work (.openAt slot _) => some slot
  | .work (.load slot _) => some slot
  | .work (.set slot _ _) => some slot
  | .work (.addRow slot _ _) => some slot
  | .work (.setOverwrite slot _) => some slot
  | .work (.compile slot) => some slot
  | _ => none

/-- An event leaves all other slots as they are. -/
theorem slots_handle (d : Desk) {e : Event} {slot : Nat} (h : slot ∉ e.slot?) :
    (d.handle e).2.slots slot = d.slots slot := by
  have hput : ∀ (views : Views) (own : Nat) (t : Template), own ≠ slot →
      (Desk.put { d with views } own t).slots slot = d.slots slot := by
    intro views own t hown
    rw [put_slots, if_neg (Ne.symm hown)]
  have hown : ∀ own, e.slot? = some own → own ≠ slot := by
    rintro own hown rfl
    exact h hown
  cases e with
  | work s =>
      cases s with
      | openAt own name =>
          simp only [handle, step]
          split
          · exact hput _ own _ (hown own rfl)
          · rfl
      | load own name => exact hput _ own _ (hown own rfl)
      | set own name value => exact hput _ own _ (hown own rfl)
      | addRow own path row => exact hput _ own _ (hown own rfl)
      | setOverwrite own overwrite => exact hput _ own _ (hown own rfl)
      | compile own => exact hput _ own _ (hown own rfl)
      | renew maxAge capacity constants =>
          simp only [handle, step]
          split
          · rfl
          · rfl
      | wait now => rfl
  | source name => rfl
  | lookUp name => rfl
  | edit e => rfl

/-! ## What is in memory -/

open Views (Remembers)

/-- A step adds nothing to the memory but contents of files. -/
theorem remembers_step (hd : d.views.Remembers Q) (s : Step)
    (hbefore : ∀ name content time, d.views.disk.stat? name = some (.file content time) →
      Q ⟨name, content, time⟩)
    (hafter : ∀ name content time, (d.step s).2.views.disk.stat? name = some (.file content time) →
      Q ⟨name, content, time⟩) : (d.step s).2.views.Remembers Q := by
  cases s with
  | openAt slot name =>
      rw [views_openAt] at hafter ⊢
      exact Template.remembers_load hd (hafter name)
  | load slot name => exact Template.remembers_load hd (hafter name)
  | set slot name value => exact hd
  | addRow slot path row => exact hd
  | setOverwrite slot overwrite => exact hd
  | compile slot => exact Template.remembers_compile hd hbefore (d.slots slot)
  | renew maxAge capacity constants =>
      rcases d.views_renew maxAge capacity constants with hsame | hmake
      · rw [hsame]
        exact hd
      · rw [Views.eq_of_make hmake]
        intro k hk
        contradiction
  | wait now => exact hd

/-- An event adds nothing to the memory but contents of files. -/
theorem remembers_handle (hd : d.views.Remembers Q) (e : Event)
    (hbefore : ∀ name content time, d.views.disk.stat? name = some (.file content time) →
      Q ⟨name, content, time⟩)
    (hafter : ∀ name content time,
      (d.handle e).2.views.disk.stat? name = some (.file content time) →
        Q ⟨name, content, time⟩) : (d.handle e).2.views.Remembers Q := by
  cases e with
  | work s => exact remembers_step hd s hbefore hafter
  | source name =>
      exact (Views.load_remembers d.views hbefore name d.views ⟨.refl d.views, hd⟩).2
  | lookUp name =>
      show (d.views.savedTree name).2.Remembers Q
      unfold Remembers
      rw [Views.recent_savedTree]
      exact hd
  | edit e => exact hd

/-- **What is in memory at the end of a run was on one of its disks**, if it was at the start. -/
theorem remembers_after {events : List Event} (hd : d.views.Remembers Q)
    (htrail : ∀ disk ∈ d.trail events, ∀ name content time,
      disk.stat? name = some (.file content time) → Q ⟨name, content, time⟩) :
    (d.after events).views.Remembers Q := by
  induction events generalizing d with
  | nil => exact hd
  | cons e rest ih =>
      have hnext : ∀ disk ∈ (d.handle e).2.trail rest, ∀ name content time,
          disk.stat? name = some (.file content time) → Q ⟨name, content, time⟩ :=
        fun disk hdisk => htrail disk (List.mem_cons_of_mem _ hdisk)
      apply ih _ hnext
      apply remembers_handle hd e
      · exact htrail d.views.disk List.mem_cons_self
      · exact hnext _ (mem_trail _ rest)

end Desk
end PageServer
