/-
# Texts in memory

What is kept in memory was read from a file once. A text that is read, or that
an include tag gets, is that of the file if no text in memory has the time of
its file without being its content. Reading changes nothing but the memory.

* `Kept.Agrees`: a text in memory that is that of its file, or has another time
* `Views.Rests`: views that differ in their memory only
* `Views.load_serves`: an include tag gets the text of the file
* `Views.load_remembers`, `Views.parse_remembers`: what is in memory afterwards
* `Views.run_parse`: the tree of a text is that of the files
-/
import PageServer.Proofs.Template.SideBySide
import PageServer.Proofs.Views.Faithful

namespace PageServer

open PageServer.Action (Maintains)

/-- A text in memory is the content of its file, unless the file has another time. -/
def Kept.Agrees (disk : Disk) (k : Kept) : Prop :=
  ∀ entry, disk.stat? k.name = some entry → entry.modified = k.time →
    entry = .file k.content k.time

/-- What has just been read agrees. -/
theorem Kept.agrees_of_stat? {disk : Disk} {name : Text} {content : Bytes} {time : Int}
    (h : disk.stat? name = some (.file content time)) :
    Kept.Agrees disk ⟨name, content, time⟩ := by
  intro entry hentry _
  exact Option.some.inj (hentry.symm.trans h)

/-- A name that is refused finds nothing. -/
theorem Disk.checkName_of_stat? {disk : Disk} {name : Text} {entry : Entry}
    (h : disk.stat? name = some entry) : Views.checkName name = .ok () := by
  cases hcheck : Views.checkName name with
  | ok _ => rfl
  | error fault =>
      rw [stat?_of_pathOf?_none disk (Views.pathOf?_of_checkName hcheck)] at h
      contradiction

/-- The text of a template depends on what is found under its name only. -/
theorem Disk.textOf_congr {disk other : Disk} {name : Text}
    (h : disk.stat? name = other.stat? name) : disk.textOf name = other.textOf name := by
  simp only [textOf, h]

namespace Views

variable {v v' v'' : Views} {name : Text} {P : Kept → Prop}

/-! ## Nothing but the memory -/

/-- Views with the same files and settings at the same time: they differ in what is in memory, if
at all. -/
structure Rests (v v' : Views) : Prop extends Keeps v v' where
  disk : v'.disk = v.disk

theorem Rests.refl (v : Views) : v.Rests v := ⟨.refl v, rfl⟩

theorem Rests.trans (h : v.Rests v') (h' : v'.Rests v'') : v.Rests v'' :=
  ⟨h.toKeeps.trans h'.toKeeps, h'.disk.trans h.disk⟩

theorem rests_recalled (v : Views) (name : Text) : v.Rests (v.recalled name).2 := by
  refine ⟨keeps_recalled v name, ?_⟩
  unfold recalled
  split
  · rfl
  · rfl

theorem rests_readFile (v : Views) (name : Text) : v.Rests (v.readFile name).2 := by
  refine ⟨keeps_readFile v name, ?_⟩
  unfold readFile
  split
  · rfl
  · rfl

/-! ## What is in memory -/

/-- Every text in memory has a property. -/
def Remembers (P : Kept → Prop) (v : Views) : Prop := ∀ k ∈ v.recent.kept, P k

theorem Remembers.recalled (hv : v.Remembers P) (name : Text) :
    (v.recalled name).2.Remembers P := by
  unfold Views.recalled
  split
  · exact hv
  · intro k hk
    exact hv k (Recent.mem_of_mem_find hk)

theorem Remembers.readFile (hv : v.Remembers P)
    (hfile : ∀ content time, v.disk.stat? name = some (.file content time) →
      P ⟨name, content, time⟩) : (v.readFile name).2.Remembers P := by
  unfold Views.readFile
  split
  · rename_i content time hstat
    intro k hk
    rcases Recent.mem_of_mem_put hk with rfl | hold
    · exact hfile content time hstat
    · exact hv k hold
  · intro k hk
    exact hv k (Recent.mem_of_mem_forget hk)

/-- The text of a template from memory or from its file is read last from the file. -/
theorem source_cases (v : Views) (name : Text) :
    (∃ text, (v.recalled name).1 = some text ∧
        v.source name = (some text, (v.recalled name).2)) ∨
      (v.recalled name).1 = none ∧ v.source name = (v.recalled name).2.readFile name := by
  unfold source
  rcases v.recalled name with ⟨found, after⟩
  cases found with
  | some text => exact .inl ⟨text, rfl, rfl⟩
  | none => exact .inr ⟨rfl, rfl⟩

theorem rests_source (v : Views) (name : Text) : v.Rests (v.source name).2 := by
  have hrecalled := rests_recalled v name
  rcases v.source_cases name with ⟨text, -, hsource⟩ | ⟨-, hsource⟩
  · rw [hsource]
    exact hrecalled
  · rw [hsource]
    exact hrecalled.trans (rests_readFile _ name)

theorem Remembers.source (hv : v.Remembers P)
    (hfile : ∀ content time, v.disk.stat? name = some (.file content time) →
      P ⟨name, content, time⟩) : (v.source name).2.Remembers P := by
  have hrecalled := hv.recalled name
  rcases v.source_cases name with ⟨text, -, hsource⟩ | ⟨-, hsource⟩
  · rw [hsource]
    exact hrecalled
  · rw [hsource]
    apply hrecalled.readFile
    rw [(rests_recalled v name).disk]
    exact hfile

/-- An include tag gets the text from memory or from the file. -/
theorem run_load (v : Views) (name : Text) :
    Action.run (Views.load name) v =
      match checkName name with
      | .error fault => (.error fault, v)
      | .ok () => (match (v.source name).1 with
          | some text => .ok text
          | none => .error (.templateNotFound name), (v.source name).2) := by
  rw [Views.load, Action.run_mk]
  cases checkName name with
  | error fault => rfl
  | ok _ =>
      dsimp only
      rcases v.source name with ⟨found, after⟩
      cases found <;> rfl

/-- **Loading a text adds nothing to the memory but contents of files**, and changes nothing
else. -/
theorem load_remembers (before : Views)
    (hfile : ∀ name content time, before.disk.stat? name = some (.file content time) →
      P ⟨name, content, time⟩) (name : Text) :
    Maintains (fun v => before.Rests v ∧ v.Remembers P) (Views.load name) := by
  intro v ⟨hrests, hv⟩
  rw [run_load]
  cases checkName name with
  | error fault => exact ⟨hrests, hv⟩
  | ok _ =>
      refine ⟨hrests.trans (rests_source v name), hv.source ?_⟩
      rw [hrests.disk]
      exact hfile name

/-- So does making a tree. -/
theorem parse_remembers (hv : v.Remembers P)
    (hfile : ∀ name content time, v.disk.stat? name = some (.file content time) →
      P ⟨name, content, time⟩) (source file : Text) :
    v.Rests (Action.run (Node.parse Views.load source file) v).2 ∧
      (Action.run (Node.parse Views.load source file) v).2.Remembers P :=
  Node.parse_maintains (load_remembers v hfile) source file v ⟨.refl v, hv⟩

/-- Loading a text changes nothing but the memory. -/
theorem rests_load (v : Views) (name : Text) : v.Rests (Action.run (Views.load name) v).2 :=
  (load_remembers (P := fun _ => True) v (fun _ _ _ _ => trivial) name v
    ⟨.refl v, fun _ _ => trivial⟩).1

/-- Nor does making a tree. -/
theorem rests_parse (v : Views) (source file : Text) :
    v.Rests (Action.run (Node.parse Views.load source file) v).2 :=
  (parse_remembers (P := fun _ => True) (v := v) (fun _ _ => trivial) (fun _ _ _ _ => trivial)
    source file).1

/-! ## Texts of files -/

/-- A text from memory is that of the file, if it agrees with it. -/
theorem textOf_of_recalled (hv : ∀ k ∈ v.recent.kept, k.name = name → k.Agrees v.disk)
    {text : Text} (h : (v.recalled name).1 = some text) : v.disk.textOf name = .ok text := by
  unfold recalled at h
  split at h
  · contradiction
  · rename_i entry hentry
    -- what is found was kept with the time of the file
    obtain ⟨content, hcontent, rfl⟩ := Option.map_eq_some_iff.mp h
    have hkept := Recent.of_find hcontent
    have hfile := hv _ hkept rfl entry hentry rfl
    rw [hfile] at hentry
    exact Faithful.textOf_of_file (Disk.checkName_of_stat? hentry) hentry

/-- A text that is read is that of the file. -/
theorem textOf_of_readFile (v : Views) (hcheck : checkName name = .ok ()) :
    v.disk.textOf name =
      match (v.readFile name).1 with
      | some text => .ok text
      | none => .error (.templateNotFound name) := by
  unfold Disk.textOf readFile
  rw [hcheck]
  cases v.disk.stat? name with
  | none => rfl
  | some entry => cases entry <;> rfl

/-- A text from memory or from the file is that of the file. -/
theorem textOf_of_source (hv : ∀ k ∈ v.recent.kept, k.name = name → k.Agrees v.disk)
    (hcheck : checkName name = .ok ()) :
    v.disk.textOf name =
      match (v.source name).1 with
      | some text => .ok text
      | none => .error (.templateNotFound name) := by
  rcases v.source_cases name with ⟨text, hrecalled, hsource⟩ | ⟨-, hsource⟩
  · rw [hsource]
    exact textOf_of_recalled hv hrecalled
  · rw [hsource, ← (rests_recalled v name).disk]
    exact textOf_of_readFile _ hcheck

/-- **An include tag gets the text of the file**, if what is in memory under its name agrees with
it. -/
theorem load_serves (before : Views) (names : Set Text) :
    Loader.Serves
      (fun v => before.Rests v ∧ v.Remembers fun k => k.name ∈ names → k.Agrees before.disk)
      names before.disk.textOf Views.load := by
  intro name hname v hv
  refine ⟨?_, load_remembers before ?_ name v hv⟩
  · obtain ⟨hrests, hv⟩ := hv
    rw [run_load, ← hrests.disk]
    cases hcheck : checkName name with
    | error fault => simp only [Disk.textOf, hcheck]
    | ok _ =>
        refine (textOf_of_source ?_ hcheck).symm
        intro k hk hkname
        -- the disk is the one before, with which the memory agrees
        rw [hrests.disk]
        apply hv k hk
        rw [hkname]
        exact hname
  · intro other content time hstat _
    exact Kept.agrees_of_stat? hstat

/-- **The tree of a text is that of the files**, if what is in memory of the templates it
includes agrees with them. -/
theorem run_parse {names : Set Text} (hclosed : IncludeClosed names v.disk.textOf)
    (hv : v.Remembers fun k => k.name ∈ names → k.Agrees v.disk) (hname : name ∈ names)
    {source : Text} (hsource : v.disk.textOf name = .ok source) :
    (Action.run (Node.parse Views.load source name) v).1 = v.disk.treeOf name := by
  have hgives := Node.parse_gives (load_serves v names) hclosed hname hsource
  rw [(hgives v ⟨.refl v, hv⟩).1]
  simp only [Disk.treeOf, hsource]

end Views
end PageServer
