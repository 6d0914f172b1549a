/-
# The views of a site

Templates are read from the files of a folder. Contents read lately are kept in
memory and used while the time of the file is the same, and trees are saved in
files of a folder of their own.

* `Views.load`: the text of a template, as an include tag needs it
* `Views.savedTree`: a saved tree that may still be used
* `Views.isCurrent`, `Views.save`: whether a saved tree is newer than its file, and saving one
-/
import PageServer.Action
import PageServer.Views.Disk
import PageServer.Views.Recent
import PageServer.Views.SavedTree
import PageServer.Template.Inclusion
import PageServer.Template.Render

namespace PageServer

/-- The views of a site: their files, what is kept of them in memory, and the settings. No tree is
saved or used if `maxAge` is not positive. -/
structure Views where
  /-- The files. -/
  disk : Disk := {}
  /-- The time in seconds. -/
  now : Int := 0
  /-- The texts that are kept in memory. -/
  recent : Recent
  /-- For how many seconds a saved tree may be used after its file has changed. -/
  maxAge : Int
  /-- The constants of all templates. -/
  constants : Constants := []
  deriving Inhabited

namespace Views

/-! ## Places -/

/-- The folder of the saved trees. -/
def savedFolder : Text := "cached"

/-- The name of the file in which the tree of a template is saved: the name of the template with
underscores for slashes and backslashes, behind a fixed start. -/
def savedFile (name : Text) : Text :=
  "parsed_" ++ name.map fun c => if c = '/' ∨ c = '\\' then '_' else c

/-- The name of that file with its folder. -/
def savedName (name : Text) : Text := savedFolder ++ '/' :: savedFile name

/-- Whether trees are saved. -/
def saves (v : Views) : Bool := decide (0 < v.maxAge)

/-- The views of a folder, with nothing in memory. The folder of the saved trees is made if trees
are saved. -/
def make (disk : Disk) (now : Int) (maxAge : Int) (capacity : Nat) (constants : Constants) :
    Except Abort Views := do
  let recent ← Recent.ofCapacity capacity
  let views : Views := { disk, now, recent, maxAge, constants }
  if views.saves then
    return { views with disk := (disk.addFolders? now [savedFolder]).getD disk }
  else return views

/-- A template name that stays inside the folder. -/
def checkName (name : Text) : Except Fault Unit :=
  if Disk.isInside name then .ok () else .error .invalidPath

/-! ## Sources -/

/-- The text kept in memory for a template whose file has not changed since. -/
def recalled (v : Views) (name : Text) : Option Text × Views :=
  match v.disk.stat? name with
  | none => (none, v)
  | some entry =>
    let (content, recent) := v.recent.find name entry.modified
    (content.map Utf8.decodeLossy, { v with recent })

/-- The text of the file of a template, which is kept in memory. What was kept is dropped if
there is no file. -/
def readFile (v : Views) (name : Text) : Option Text × Views :=
  match v.disk.stat? name with
  | some (.file content time) =>
    (some (Utf8.decodeLossy content), { v with recent := v.recent.put name content time })
  | _ => (none, { v with recent := v.recent.forget name })

/-- The text of a template from memory or from its file. -/
def source (v : Views) (name : Text) : Option Text × Views :=
  match v.recalled name with
  | (some text, v) => (some text, v)
  | (none, v) => v.readFile name

/-- The text of a template, as an include tag needs it. -/
def load : Loader Views := fun name => Action.mk fun v =>
  match checkName name with
  | .error fault => (.error fault, v)
  | .ok () =>
    match v.source name with
    | (some text, v) => (.ok text, v)
    | (none, v) => (.error (.templateNotFound name), v)

/-! ## Saved trees -/

/-- Removes the saved tree of a template. -/
def removeSaved (v : Views) (name : Text) : Views :=
  match Disk.pathOf? (savedName name) with
  | some path => { v with disk := v.disk.remove path }
  | none => v

/-- The age of a time in whole seconds; a time to come has age zero. -/
def age (v : Views) (time : Int) : Int := max (v.now - time) 0

/-- Whether a tree saved at `time` is out of date: its file has changed since, and it is as old as
allowed. -/
def isExpired (v : Views) (name : Text) (time : Int) : Bool :=
  match v.disk.stat? name with
  | some entry => decide (time < entry.modified ∧ v.maxAge ≤ v.age time)
  | none => false

/-- The saved tree of a template, if it may still be used. One that is out of date or that is
text but no tree is removed. -/
def savedTree (v : Views) (name : Text) : Option (List Node) × Views :=
  if !v.saves then (none, v)
  else
    match v.disk.stat? (savedName name) with
    | none => (none, v)
    | some entry =>
      if v.isExpired name entry.modified then (none, v.removeSaved name)
      else
        match entry with
        | .folder _ => (none, v)
        | .file content _ =>
          match Utf8.decode? content with
          | none => (none, v)
          | some text =>
            match SavedTree.read? text with
            | some nodes => (some nodes, v)
            | none => (none, v.removeSaved name)

/-- Whether a tree is saved that is not older than the file of its template. -/
def isCurrent (v : Views) (name : Text) : Bool :=
  match v.disk.stat? (savedName name), v.disk.stat? name with
  | some saved, some entry => decide (entry.modified ≤ saved.modified)
  | some _, none => true
  | none, _ => false

/-- Saves the tree of a template, if trees are saved and its file can be written. -/
def save (v : Views) (name : Text) (nodes : List Node) : Views :=
  if !v.saves then v
  else
    match v.disk.addFolders? v.now [savedFolder] with
    | none => v
    | some disk =>
      match Disk.pathOf? (savedName name) with
      | some path =>
        { v with disk := disk.write path (Utf8.encode (SavedTree.write nodes)) v.now }
      | none => { v with disk }

end Views
end PageServer
