/-
# Saved trees that count as current

A saved tree counts as current if it is not older than the file of its template.
It is stamped when it is saved, though it was made from the text that was read
when its template was opened. If no file is written between the two, and every
write leaves a later time than there was, a tree that counts as current is that
of the file. A write between the two breaks this for good.

* `IsFlat`, `Disk.treeOf_eq_of_flat`: templates that include nothing
* `Views.Tended`: files, memory and saved trees while files are only written at later times
* `Views.Tended.upkeep`, `Views.Tended.write`, `Views.Tended.renew`: what keeps it
* `Desk.Allows`, `Desk.Careful`: writes that come at the right moment
* `Desk.tended_handle`, `Desk.tended_after`: one event keeps the invariant, and so does a run
* `Desk.treeOf_of_isCurrent`: a tree that counts as current is that of the file
* `Desk.current_but_old`: unless a write comes between opening a template and making its tree
-/
import PageServer.Proofs.Views.Editing
import PageServer.Proofs.Views.Visits

namespace PageServer

/-! ## Templates that include nothing -/

/-- A text, as that of a template of some name, that includes no other template. -/
def IsFlat (name source : Text) : Prop :=
  ∀ tokens ∈ (Token.scan source name).toOption, ∀ token ∈ tokens, token.Includes ∅

instance decidableIsFlat (name source : Text) : Decidable (IsFlat name source) :=
  have (included : Text) : Decidable (included ∈ (∅ : Set Text)) :=
    isFalse (Set.notMem_empty included)
  inferInstanceAs (Decidable (∀ tokens ∈ (Token.scan source name).toOption,
    ∀ token ∈ tokens, token.Includes ∅))

namespace Disk

variable {disk other : Disk} {name source : Text}

/-- Such a template is closed under inclusion by itself. -/
theorem includeClosed_of_flat (hsource : disk.textOf name = .ok source) (h : IsFlat name source) :
    IncludeClosed {name} disk.textOf := by
  rintro _ rfl found hfound tokens htokens token htoken
  rw [hsource] at hfound
  obtain rfl := Except.ok.inj hfound
  have hincludes : token.Includes ∅ := by
    apply h tokens _ token htoken
    rw [htokens]
    rfl
  obtain ⟨kind, span⟩ := token
  cases kind with
  | inclusion included => exact absurd hincludes (Set.notMem_empty included)
  | _ => trivial

/-- Its tree depends on its own text only. -/
theorem treeOf_eq_of_flat (hsource : disk.textOf name = .ok source) (h : IsFlat name source)
    (hsame : other.textOf name = disk.textOf name) : other.treeOf name = disk.treeOf name := by
  apply treeOf_congr (includeClosed_of_flat hsource h) _ rfl
  rintro _ rfl
  exact hsame

/-- A template with a text has a file. -/
theorem stat?_of_textOf (h : disk.textOf name = .ok source) :
    ∃ content time, disk.stat? name = some (.file content time) ∧
      source = Utf8.decodeLossy content := by
  unfold textOf at h
  split at h
  · contradiction
  · split at h
    · rename_i content time hstat
      exact ⟨content, time, hstat, (Except.ok.inj h).symm⟩
    · contradiction

/-- A name that finds a file finds any file that stands under its path. -/
theorem stat?_of_entry? {path : Path} (hpath : pathOf? name = some path) {content : Bytes}
    {time : Int} (hstat : disk.stat? name = some (.file content time)) {content' : Bytes}
    {time' : Int} (h : other.entry? path = some (.file content' time')) :
    other.stat? name = some (.file content' time') := by
  have hfolder : asksForFolder name = false := by
    cases hasks : asksForFolder name with
    | false => rfl
    | true =>
        obtain ⟨place, hplace, hentry⟩ := of_stat? hstat
        simp only [stat?, hplace, hentry, hasks, if_true] at hstat
        contradiction
  simp only [stat?, hpath, h, hfolder, Bool.false_eq_true, if_false]

end Disk

namespace Views

/-! ## The invariant -/

/-- A text in memory that was read from its file, and is the content of the file unless this has
been written at a later time. -/
def Precedes (disk : Disk) (k : Kept) : Prop :=
  ∃ content time, disk.stat? k.name = some (.file content time) ∧ k.time ≤ time ∧
    (time = k.time → content = k.content)

/-- What a saved file holds: the tree of one of some templates, which is that of its file unless
this has been written at a later time. -/
def SavedFrom (opened : Set Text) (disk : Disk) (file : Text) (entry : Entry) : Prop :=
  ∃ maker ∈ opened, savedFile maker = file ∧ ∃ nodes saved content time,
    entry = .file (Utf8.encode (SavedTree.write nodes)) saved ∧
      disk.stat? maker = some (.file content time) ∧
        (time ≤ saved → disk.treeOf maker = .ok nodes)

/-- Views of templates that include nothing: no file is of a time to come, and what is in memory
or saved is as it has to be. -/
structure Tended (opened : Set Text) (v : Views) : Prop where
  files : ∀ path content time, v.disk.entry? path = some (.file content time) → time ≤ v.now
  flat : ∀ name ∈ opened, ∀ source, v.disk.textOf name = .ok source → IsFlat name source
  kept : v.Remembers fun k => IsOutside k.name → Precedes v.disk k
  saved : ∀ file entry, v.disk.entry? [savedFolder, file] = some entry →
    SavedFrom opened v.disk file entry

variable {opened : Set Text} {v v' : Views} {name : Text}

theorem Precedes.agrees {disk : Disk} {k : Kept} (h : Precedes disk k) : k.Agrees disk := by
  obtain ⟨content, time, hstat, -, hcontent⟩ := h
  intro entry hentry hmodified
  obtain rfl := Option.some.inj (hstat.symm.trans hentry)
  have htime : time = k.time := hmodified
  rw [hcontent htime, htime]

/-- The file that is found under a name precedes nothing but itself. -/
theorem precedes_of_stat? {disk : Disk} {content : Bytes} {time : Int}
    (h : disk.stat? name = some (.file content time)) : Precedes disk ⟨name, content, time⟩ :=
  ⟨content, time, h, le_rfl, fun _ => rfl⟩

/-- What is read agrees with the files. -/
theorem Tended.agrees (hv : v.Tended opened) : v.Remembers (AgreesOutside v.disk) :=
  fun k hk houtside => (hv.kept k hk houtside).agrees

/-- What stays the same if the files outside do. -/
theorem SavedFrom.congr {disk other : Disk} {file : Text} {entry : Entry}
    (h : SavedFrom opened disk file entry)
    (hflat : ∀ name ∈ opened, ∀ source, disk.textOf name = .ok source → IsFlat name source)
    (hsame : ∀ name ∈ opened, ∀ content time, disk.stat? name = some (.file content time) →
      other.stat? name = disk.stat? name) : SavedFrom opened other file entry := by
  obtain ⟨maker, hmaker, hfile, nodes, saved, content, time, hentry, hstat, hnodes⟩ := h
  have hother := hsame maker hmaker content time hstat
  refine ⟨maker, hmaker, hfile, nodes, saved, content, time, hentry, hother.trans hstat, ?_⟩
  intro htime
  have hmade := hnodes htime
  obtain ⟨source, hsource⟩ := Disk.textOf_of_treeOf hmade
  rw [← hmade]
  exact Disk.treeOf_eq_of_flat hsource (hflat maker hmaker source hsource)
    (Disk.textOf_congr hother)

/-! ## Work, writes and new views -/

/-- **Work for a template keeps the invariant** if it saves nothing but the tree of its file. -/
theorem Tended.upkeep (hv : v.Tended opened) (houtside : ∀ name ∈ opened, IsOutside name)
    {P : List Node → Prop} (h : Upkeeps name P v v')
    (hnodes : ∀ nodes, P nodes → name ∈ opened ∧ v.disk.treeOf name = .ok nodes)
    (hkept : v'.Remembers fun k => IsOutside k.name → Precedes v.disk k) : v'.Tended opened := by
  constructor
  · rw [h.now]
    exact h.files hv.files
  · intro other hother source hsource
    rw [h.textOf_eq (houtside other hother)] at hsource
    exact hv.flat other hother source hsource
  · intro k hk hkoutside
    obtain ⟨content, time, hstat, hprecedes⟩ := hkept k hk hkoutside
    exact ⟨content, time, (h.stat?_eq hkoutside).trans hstat, hprecedes⟩
  · intro file entry hentry
    have hsame : ∀ other ∈ opened, ∀ content time,
        v.disk.stat? other = some (.file content time) →
          v'.disk.stat? other = v.disk.stat? other :=
      fun other hother _ _ _ => h.stat?_eq (houtside other hother)
    rcases h.saved_cases hentry with hbefore | ⟨rfl, nodes, hP, rfl⟩
    · exact (hv.saved file entry hbefore).congr hv.flat hsame
    · obtain ⟨hname, hmade⟩ := hnodes nodes hP
      obtain ⟨source, hsource⟩ := Disk.textOf_of_treeOf hmade
      obtain ⟨content, time, hstat, -⟩ := Disk.stat?_of_textOf hsource
      have hnow : SavedFrom opened v.disk (savedFile name)
          (.file (Utf8.encode (SavedTree.write nodes)) v.now) :=
        ⟨name, hname, rfl, nodes, v.now, content, time, rfl, hstat, fun _ => hmade⟩
      exact hnow.congr hv.flat hsame

/-- A write that may come: of a file outside, whose new content includes nothing, at a time that is
not to come, later than the file and than the saved trees of its templates. -/
structure Timely (opened : Set Text) (v : Views) (name : Text) (content : Bytes) (time : Int) :
    Prop where
  outside : IsOutside name
  flat : ∀ other ∈ opened, Disk.pathOf? other = Disk.pathOf? name →
    IsFlat other (Utf8.decodeLossy content)
  notToCome : time ≤ v.now
  laterFile : ∀ path ∈ Disk.pathOf? name, ∀ entry ∈ v.disk.entry? path, entry.modified < time
  laterSaved : ∀ other ∈ opened, Disk.pathOf? other = Disk.pathOf? name →
    ∀ saved ∈ v.disk.entry? (savedPath other), saved.modified < time

variable {content : Bytes} {time : Int}

/-- The disk after a write. -/
def written (v : Views) (name : Text) (content : Bytes) (time : Int) : Disk :=
  (Edit.write name content time).apply v.now v.disk

/-- A file that is there after a write was there before, or is the one that was written. -/
theorem file_of_written {path : Path} {found : Bytes} {changed : Int}
    (h : Disk.entry? (v.written name content time) path = some (.file found changed)) :
    v.disk.entry? path = some (.file found changed) ∨
      Disk.pathOf? name = some path ∧ found = content ∧ changed = time := by
  have hchanges := (Edit.write name content time).changes_apply v.now v.disk path
  rw [written] at h
  rw [h] at hchanges
  generalize hbefore : v.disk.entry? path = before at hchanges
  cases hchanges with
  | same => exact .inl rfl
  | file _ _ _ hpath htime hcontent =>
      exact .inr ⟨hpath, hcontent content rfl, (Option.some.inj htime).symm⟩

/-- A file that was there before a write is still there, or is the one that was written. -/
theorem stat?_written (h : v.Timely opened name content time) {other : Text} {found : Bytes}
    {changed : Int} (hstat : v.disk.stat? other = some (.file found changed)) :
    (v.written name content time).stat? other = v.disk.stat? other ∨
      Disk.pathOf? other = Disk.pathOf? name ∧
        (v.written name content time).stat? other = some (.file content time) ∧
          changed < time := by
  obtain ⟨path, hpath, hentry⟩ := Disk.of_stat? hstat
  -- where a file was, no folder is made
  have hchanges := (Edit.write name content time).changes_apply v.now v.disk path
  rw [hentry] at hchanges
  generalize hafter : Disk.entry? (v.written name content time) path = after
  rw [written] at hafter
  rw [hafter] at hchanges
  cases hchanges with
  | same =>
      left
      rw [Disk.stat?_congr hpath]
      rw [written, hafter, hentry]
  | file _ _ _ hname htime hcontent =>
      obtain rfl := hcontent content rfl
      obtain rfl := Option.some.inj htime
      right
      refine ⟨hpath.trans hname.symm, Disk.stat?_of_entry? hpath hstat hafter, ?_⟩
      exact h.laterFile path hname _ hentry
  | gone _ _ htime => contradiction

/-- **A timely write keeps the invariant.** -/
theorem Tended.write (hv : v.Tended opened) (h : v.Timely opened name content time) :
    Tended opened { v with disk := v.written name content time } := by
  constructor
  · intro path found changed hentry
    rcases file_of_written hentry with hsame | ⟨-, -, rfl⟩
    · exact hv.files path found changed hsame
    · exact h.notToCome
  · intro other hother source hsource
    obtain ⟨found, changed, hstat, rfl⟩ := Disk.stat?_of_textOf hsource
    obtain ⟨path, hpath, hentry⟩ := Disk.of_stat? hstat
    rcases file_of_written hentry with hsame | ⟨hname, rfl, -⟩
    · apply hv.flat other hother
      rw [← hsource]
      exact Disk.textOf_congr (Disk.stat?_congr hpath (hsame.trans hentry.symm))
    · exact h.flat other hother (hpath.trans hname.symm)
  · -- a text in memory of the file that is written has an earlier time
    intro k hk hkoutside
    obtain ⟨found, changed, hstat, hle, hcontent⟩ := hv.kept k hk hkoutside
    rcases stat?_written h hstat with hsame | ⟨-, hwritten, hlt⟩
    · exact ⟨found, changed, hsame.trans hstat, hle, hcontent⟩
    · exact ⟨content, time, hwritten, by omega, by omega⟩
  · intro file entry hentry
    have hsaved := ((Edit.write name content time).changes_apply v.now v.disk
      [savedFolder, file]).eq_of_saved h.outside rfl
    have hbefore : v.disk.entry? [savedFolder, file] = some entry := hsaved.symm.trans hentry
    obtain ⟨maker, hmaker, hfile, nodes, saved, found, changed, rfl, hstat, hnodes⟩ :=
      hv.saved file entry hbefore
    refine ⟨maker, hmaker, hfile, nodes, saved, ?_⟩
    rcases stat?_written h hstat with hsame | ⟨hpath, hwritten, -⟩
    · refine ⟨found, changed, rfl, hsame.trans hstat, fun hle => ?_⟩
      have hmade := hnodes hle
      obtain ⟨source, hsource⟩ := Disk.textOf_of_treeOf hmade
      rw [← hmade]
      exact Disk.treeOf_eq_of_flat hsource (hv.flat maker hmaker source hsource)
        (Disk.textOf_congr hsame)
    · -- what was saved is older than what is written
      refine ⟨content, time, rfl, hwritten, fun hle => ?_⟩
      rw [← hfile] at hbefore
      have hlater : saved < time := h.laterSaved maker hmaker hpath _ hbefore
      omega

/-- New views. -/
theorem Tended.renew (hv : v.Tended opened) (houtside : ∀ name ∈ opened, IsOutside name)
    {maxAge : Int} {capacity : Nat} {constants : Constants} {made : Views}
    (h : Views.make v.disk v.now maxAge capacity constants = .ok made) : made.Tended opened := by
  have hnow : made.now = v.now := by rw [eq_of_make h]
  have hrecent : made.recent.kept = [] := by rw [eq_of_make h]
  have hentries : ∀ path, made.disk.entry? path = v.disk.entry? path ∨
      path = [savedFolder] ∧ made.disk.entry? path = some (.folder v.now) := by
    intro path
    rcases entry?_of_make h path with hsame | ⟨hpath, -, hfolder⟩
    · exact .inl hsame
    · exact .inr ⟨hpath, hfolder⟩
  have hstats : ∀ name ∈ opened, made.disk.stat? name = v.disk.stat? name :=
    fun name hname => stat?_of_make h (houtside name hname)
  constructor
  · rw [hnow]
    intro path content time hfile
    rcases hentries path with hsame | ⟨-, hfolder⟩
    · exact hv.files path content time (hsame.symm.trans hfile)
    · rw [hfolder] at hfile
      exact Entry.noConfusion (Option.some.inj hfile)
  · intro name hname source hsource
    rw [Disk.textOf_congr (hstats name hname)] at hsource
    exact hv.flat name hname source hsource
  · intro k hk
    rw [hrecent] at hk
    contradiction
  · intro file entry hentry
    rcases hentries [savedFolder, file] with hsame | ⟨hpath, -⟩
    · exact (hv.saved file entry (hsame.symm.trans hentry)).congr hv.flat
        fun name hname _ _ _ => hstats name hname
    · simp at hpath

/-- New views of files without saved trees. -/
theorem tended_of_make {files : Disk} {now maxAge : Int} {capacity : Nat} {constants : Constants}
    {made : Views} (h : Views.make files now maxAge capacity constants = .ok made)
    (houtside : ∀ name ∈ opened, IsOutside name)
    (hpast : ∀ path content time, files.entry? path = some (.file content time) → time ≤ now)
    (hempty : ∀ file, files.entry? [savedFolder, file] = none)
    (hflat : ∀ name ∈ opened, ∀ source, files.textOf name = .ok source → IsFlat name source) :
    made.Tended opened := by
  let views : Views := { disk := files, now, recent := { capacity }, maxAge, constants }
  have hviews : views.Tended opened := by
    constructor
    · exact hpast
    · exact hflat
    · intro k hk
      contradiction
    · intro file entry hentry
      rw [hempty] at hentry
      contradiction
  exact hviews.renew houtside h

end Views

/-! ## Desks -/

namespace Template

open Views (IsOutside Tended Precedes)

/-- A template whose tree is still to be made has the text of its file. -/
def Awaits (opened : Set Text) (disk : Disk) (t : Template) : Prop :=
  t.loaded = true → t.tree = none → t.name ∈ opened ∧ disk.textOf t.name = .ok t.source

variable {opened : Set Text} {v : Views} {t : Template} {name : Text}

/-- It does so while the texts of the files are the same. -/
theorem Awaits.congr {disk other : Disk} (ht : t.Awaits opened disk)
    (h : ∀ name ∈ opened, other.textOf name = disk.textOf name) : t.Awaits opened other := by
  intro hloaded htree
  obtain ⟨hname, hsource⟩ := ht hloaded htree
  exact ⟨hname, (h t.name hname).trans hsource⟩

/-- Opening a template. -/
theorem Opens.awaits {result : Except Fault Unit} {after : Template}
    (h : Opens t name v result after) (ht : t.Awaits opened v.disk) (hname : name ∈ opened) :
    after.Awaits opened v.disk := by
  cases h with
  | missing _ _ _ hafter =>
      rcases hafter with rfl | hunloaded
      · exact ht
      · intro hloaded
        rw [hunloaded] at hloaded
        contradiction
  | source text htext => exact fun _ _ => ⟨hname, htext⟩
  | saved nodes hnodes =>
      intro _ htree
      contradiction

/-- The tree that is made is that of the file. -/
theorem treeOf_of_parse (hv : v.Tended opened) (houtside : ∀ name ∈ opened, IsOutside name)
    (ht : t.Awaits opened v.disk) (htree : t.tree = none) (hloaded : t.loaded = true)
    {nodes : List Node}
    (hnodes : (Action.run (Node.parse Views.load t.source t.name) v).1 = .ok nodes) :
    t.name ∈ opened ∧ v.disk.treeOf t.name = .ok nodes := by
  obtain ⟨hname, hsource⟩ := ht hloaded htree
  have hclosed := Disk.includeClosed_of_flat hsource (hv.flat t.name hname t.source hsource)
  have hmemory : v.Remembers fun k => k.name ∈ ({t.name} : Set Text) → k.Agrees v.disk := by
    intro k hk hkname
    have hsame : k.name = t.name := hkname
    apply hv.agrees k hk
    rw [hsame]
    exact houtside t.name hname
  refine ⟨hname, ?_⟩
  rw [← Views.run_parse hclosed hmemory rfl hsource]
  exact hnodes

/-- Making the page of a template. -/
theorem awaits_compile {disk : Disk} (ht : t.Awaits opened disk) (v : Views) :
    (t.compile v).2.1.Awaits opened disk := by
  obtain ⟨output, hafter⟩ := compile_template t v
  rw [hafter]
  cases htree : t.tree with
  | some nodes =>
      rw [run_parse_of_tree htree]
      intro _ hnone
      exact absurd (htree.symm.trans hnone) (Option.some_ne_none nodes)
  | none =>
      cases hloaded : t.loaded with
      | false =>
          rw [run_parse_of_unloaded htree hloaded]
          intro hafterLoaded
          exact absurd (hloaded.symm.trans hafterLoaded) Bool.false_ne_true
      | true =>
          rw [run_parse_of_source htree hloaded]
          rcases Action.run (Node.parse Views.load t.source t.name) v with ⟨result, after⟩
          cases result with
          | error fault => exact fun _ _ => ht hloaded htree
          | ok nodes =>
              intro _ hnone
              contradiction

end Template

namespace Desk

open Views (IsOutside Timely Tended Upkeeps Precedes)

/-- Whether an event may happen: templates are among some, time does not run back, and the files
are only written, timely, and while no template of theirs waits for its tree. -/
def Allows (opened : Set Text) (d : Desk) : Event → Prop
  | .work (.openAt _ name) => name ∈ opened
  | .work (.load _ name) => name ∈ opened
  | .work (.wait now) => d.views.now ≤ now
  | .edit (.write name content time) =>
    d.views.Timely opened name content time ∧
      ∀ slot, (d.slots slot).loaded = true → (d.slots slot).tree = none →
        Disk.pathOf? (d.slots slot).name ≠ Disk.pathOf? name
  | .edit _ => False
  | _ => True

/-- A run in which every event may happen when it does. -/
def Careful (opened : Set Text) : Desk → List Event → Prop
  | _, [] => True
  | d, e :: rest => d.Allows opened e ∧ Careful opened (d.handle e).2 rest

/-- A desk whose views are tended, and on which every template that waits for its tree has the text
of its file. -/
structure IsTended (opened : Set Text) (d : Desk) : Prop where
  views : d.views.Tended opened
  slots : ∀ slot, (d.slots slot).Awaits opened d.views.disk

variable {opened : Set Text} {d : Desk}

/-- Work for a template, after which the slots hold templates that wait with the texts of before. -/
theorem IsTended.upkeep (hd : d.IsTended opened) (houtside : ∀ name ∈ opened, IsOutside name)
    {name : Text} {P : List Node → Prop} {views : Views} (h : Upkeeps name P d.views views)
    (hnodes : ∀ nodes, P nodes → name ∈ opened ∧ d.views.disk.treeOf name = .ok nodes)
    (hkept : views.Remembers fun k => IsOutside k.name → Precedes d.views.disk k)
    {slots : Nat → Template} (hslots : ∀ slot, (slots slot).Awaits opened d.views.disk) :
    IsTended opened ⟨views, slots⟩ :=
  ⟨hd.views.upkeep houtside h hnodes hkept,
    fun slot => (hslots slot).congr fun name hname => h.textOf_eq (houtside name hname)⟩

/-- The slots with one template more. -/
theorem awaits_put {disk : Disk} (h : ∀ slot, (d.slots slot).Awaits opened disk) (views : Views)
    (slot : Nat) {t : Template} (ht : t.Awaits opened disk) (other : Nat) :
    ((Desk.put { d with views } slot t).slots other).Awaits opened disk := by
  rw [put_slots]
  split_ifs
  · exact ht
  · exact h other

/-- Loading a template into another one. -/
theorem IsTended.load (hd : d.IsTended opened) (houtside : ∀ name ∈ opened, IsOutside name)
    {name : Text} (hname : name ∈ opened) {t : Template} (ht : t.Awaits opened d.views.disk) :
    (t.load name d.views).2.1.Awaits opened d.views.disk ∧
      ∀ {slots : Nat → Template}, (∀ slot, (slots slot).Awaits opened d.views.disk) →
        IsTended opened ⟨(t.load name d.views).2.2, slots⟩ := by
  have hload := Template.upkeeps_load (P := fun _ => False) t name d.views
  have hopens := Template.load_opens t (houtside name hname) fun k hk hkname =>
    hd.views.agrees k hk (hkname ▸ houtside name hname)
  refine ⟨hopens.awaits ht hname, fun hslots => hd.upkeep houtside hload ?_ ?_ hslots⟩
  · intro nodes hnodes
    contradiction
  · apply Template.remembers_load hd.views.kept
    intro content time hstat hother
    rw [hload.stat?_eq hother] at hstat
    exact Views.precedes_of_stat? hstat

/-- A step of the work keeps the invariant. -/
theorem IsTended.step (hd : d.IsTended opened) (houtside : ∀ name ∈ opened, IsOutside name)
    {s : Step} (hs : d.Allows opened (.work s)) : (d.step s).2.IsTended opened := by
  have hslots := hd.slots
  cases s with
  | openAt slot name =>
      have hempty : Template.Awaits opened d.views.disk {} := by
        intro hloaded
        contradiction
      obtain ⟨hopened, hafter⟩ := hd.load houtside hs hempty
      simp only [Desk.step]
      rcases hload : Template.load {} name d.views with ⟨result, t, views⟩
      rw [hload] at hopened hafter
      cases result with
      | ok _ => exact hafter (awaits_put hslots views slot hopened)
      | error fault => exact hafter hslots
  | load slot name =>
      obtain ⟨hopened, hafter⟩ := hd.load houtside hs (hslots slot)
      exact hafter (awaits_put hslots _ slot hopened)
  | set slot name value => exact ⟨hd.views, awaits_put hslots d.views slot (hslots slot)⟩
  | addRow slot path row =>
      have hrow : ((d.slots slot).addRow path row).2.Awaits opened d.views.disk := by
        unfold Template.addRow
        split
        · exact hslots slot
        · exact hslots slot
      exact ⟨hd.views, awaits_put hslots d.views slot hrow⟩
  | setOverwrite slot overwrite =>
      exact ⟨hd.views, awaits_put hslots d.views slot (hslots slot)⟩
  | compile slot =>
      have hcompile := Template.upkeeps_compile (d.slots slot) d.views
        fun nodes htree hloaded hnodes =>
          Template.treeOf_of_parse hd.views houtside (hslots slot) htree hloaded hnodes
      refine hd.upkeep houtside hcompile (fun nodes hnodes => hnodes) ?_ ?_
      · apply Template.remembers_compile hd.views.kept
        intro name content time hstat _
        exact Views.precedes_of_stat? hstat
      · exact awaits_put hslots _ slot (Template.awaits_compile (hslots slot) d.views)
  | renew maxAge capacity constants =>
      have hsame : ∀ slot, (d.step (.renew maxAge capacity constants)).2.slots slot = d.slots slot :=
        fun slot => d.slots_handle (e := .work (.renew maxAge capacity constants)) (by simp [Event.slot?])
      rcases d.views_renew maxAge capacity constants with hviews | hmake
      · constructor
        · rw [hviews]
          exact hd.views
        · intro slot
          rw [hviews, hsame slot]
          exact hslots slot
      · refine ⟨hd.views.renew houtside hmake, fun slot => ?_⟩
        rw [hsame slot]
        apply (hslots slot).congr
        intro name hname
        exact Disk.textOf_congr (Views.stat?_of_make hmake (houtside name hname))
  | wait now =>
      refine ⟨⟨?_, hd.views.flat, hd.views.kept, hd.views.saved⟩, hslots⟩
      intro path content time hentry
      exact (hd.views.files path content time hentry).trans hs

/-- **Every event keeps the invariant** if it happens when it may. -/
theorem tended_handle (hd : d.IsTended opened) (houtside : ∀ name ∈ opened, IsOutside name)
    {e : Event} (he : d.Allows opened e) : (d.handle e).2.IsTended opened := by
  cases e with
  | work s => exact hd.step houtside he
  | source name =>
      obtain ⟨hrests, hkept⟩ := Views.load_remembers d.views
        (fun name content time hstat _ => Views.precedes_of_stat? hstat) name d.views
        ⟨.refl d.views, hd.views.kept⟩
      have hload : Upkeeps name (fun _ => False) d.views
          (Action.run (Views.load name) d.views).2 := hrests.upkeeps
      refine hd.upkeep houtside hload ?_ hkept hd.slots
      intro nodes hnodes
      contradiction
  | lookUp name =>
      have hlookUp := Views.upkeeps_savedTree (P := fun _ => False) d.views name
      refine hd.upkeep houtside hlookUp ?_ ?_ hd.slots
      · intro nodes hnodes
        contradiction
      · unfold Views.Remembers
        rw [Views.recent_savedTree]
        exact hd.views.kept
  | edit e =>
      cases e with
      | write name content time =>
          obtain ⟨htimely, hwaiting⟩ := he
          refine ⟨hd.views.write htimely, fun slot hloaded htree => ?_⟩
          -- what is written is not what a template waits with
          obtain ⟨hname, hsource⟩ := hd.slots slot hloaded htree
          obtain ⟨found, changed, hstat, -⟩ := Disk.stat?_of_textOf hsource
          refine ⟨hname, Eq.trans (Disk.textOf_congr ?_) hsource⟩
          rcases Views.stat?_written htimely hstat with hsame | ⟨hpath, -⟩
          · exact hsame
          · exact absurd hpath (hwaiting slot hloaded htree)
      | touch name time => exact absurd he id
      | delete name => exact absurd he id

/-- **So does a run.** -/
theorem tended_after {events : List Event} (hd : d.IsTended opened)
    (houtside : ∀ name ∈ opened, IsOutside name) (hevents : d.Careful opened events) :
    (d.after events).IsTended opened := by
  induction events generalizing d with
  | nil => exact hd
  | cons e rest ih =>
      obtain ⟨he, hrest⟩ := hevents
      exact ih (tended_handle hd houtside he) hrest

/-- **A saved tree that counts as current is that of the file.** For templates that lie outside the
folder of the saved trees, include nothing and do not share saved files, over files that had no
saved trees at the start and none of a time to come, after a run in which the files are only
written: each time at a time that is not to come and later than those of the file and of the saved
trees of its templates, and while no template of the file has been opened whose tree is still to be
made. -/
theorem treeOf_of_isCurrent {files : Disk} {now maxAge : Int} {capacity : Nat}
    {constants : Constants} {made : Views}
    (hmake : Views.make files now maxAge capacity constants = .ok made)
    (hpast : ∀ path content time, files.entry? path = some (.file content time) → time ≤ now)
    (hempty : ∀ file, files.entry? [Views.savedFolder, file] = none)
    (houtside : ∀ name ∈ opened, IsOutside name) (hdistinct : Set.InjOn Views.savedFile opened)
    (hflat : ∀ name ∈ opened, ∀ source, files.textOf name = .ok source → IsFlat name source)
    {events : List Event} (hevents : Careful opened { views := made } events)
    (hd : d = after { views := made } events) {name : Text} (hname : name ∈ opened)
    (hcurrent : d.views.isCurrent name = true) :
    ∃ nodes saved, d.views.disk.entry? (Views.savedPath name) =
        some (.file (Utf8.encode (SavedTree.write nodes)) saved) ∧
      d.views.disk.treeOf name = .ok nodes := by
  have hstart : IsTended opened { views := made } := by
    refine ⟨Views.tended_of_make hmake houtside hpast hempty hflat, fun slot hloaded => ?_⟩
    contradiction
  have htended := tended_after hstart houtside hevents
  rw [← hd] at htended
  unfold Views.isCurrent at hcurrent
  split at hcurrent
  · rename_i entry found hsaved hstat
    have hle : found.modified ≤ entry.modified := of_decide_eq_true hcurrent
    obtain ⟨path, hpath, hentry⟩ := Disk.of_stat? hsaved
    obtain rfl := Views.pathOf?_savedName hpath
    obtain ⟨maker, hmaker, hfile, nodes, saved, content, time, rfl, hmakerStat, hnodes⟩ :=
      htended.views.saved _ _ hentry
    -- no other template has this saved file
    obtain rfl := hdistinct hmaker hname hfile
    obtain rfl := Option.some.inj (hmakerStat.symm.trans hstat)
    exact ⟨nodes, saved, hentry, hnodes hle⟩
  · rename_i entry hsaved hnone
    -- what is saved has a file
    obtain ⟨path, hpath, hentry⟩ := Disk.of_stat? hsaved
    obtain rfl := Views.pathOf?_savedName hpath
    obtain ⟨maker, hmaker, hfile, nodes, saved, content, time, rfl, hmakerStat, -⟩ :=
      htended.views.saved _ _ hentry
    obtain rfl := hdistinct hmaker hname hfile
    rw [hnone] at hmakerStat
    contradiction
  · contradiction

/-- A page that includes nothing, at time 100, with trees that may be used for 50 seconds. -/
def letterPage : Disk := { entries := [(["a.html"], .file (Utf8.encode "A") 10)] }

/-- A desk over it. -/
def letterDesk : Desk :=
  match Views.make letterPage 100 50 1 [] with
  | .ok made => { views := made }
  | .error _ => { views := default }

/-- The page is opened, written, and made. -/
def writtenBetween : List Event :=
  [.work (.openAt 0 "a.html"), .edit (.write "a.html" (Utf8.encode "B") 50), .work (.compile 0)]

/-- The page is opened, made, and written at once. -/
def writtenAtOnce : List Event :=
  [.work (.openAt 0 "a.html"), .work (.compile 0), .edit (.write "a.html" (Utf8.encode "B") 100)]

/-- **A tree may count as current and be that of an older text**: if the file was written between
opening the template and making its tree, or at the very time at which the tree was saved. -/
theorem current_but_old :
    ((letterDesk.after writtenBetween).views.isCurrent "a.html" = true ∧
        (letterDesk.after writtenBetween).views.disk.entry? (Views.savedPath "a.html") =
          some (.file (Utf8.encode "[\x7b\"Text\":\"A\"\x7d]") 100) ∧
        ((letterDesk.after writtenBetween).views.disk.treeOf "a.html").map SavedTree.write =
          .ok "[\x7b\"Text\":\"B\"\x7d]".toList) ∧
      (letterDesk.after writtenAtOnce).views.isCurrent "a.html" = true ∧
      (letterDesk.after writtenAtOnce).views.disk.entry? (Views.savedPath "a.html") =
        some (.file (Utf8.encode "[\x7b\"Text\":\"A\"\x7d]") 100) ∧
      ((letterDesk.after writtenAtOnce).views.disk.treeOf "a.html").map SavedTree.write =
        .ok "[\x7b\"Text\":\"B\"\x7d]".toList := by
  decide +kernel

/-- The page is made, written later, and made again. -/
def writtenLater : List Event :=
  [.work (.openAt 0 "a.html"), .work (.compile 0), .work (.wait 200),
    .edit (.write "a.html" (Utf8.encode "B") 200), .work (.openAt 1 "a.html"), .work (.compile 1)]

/-- The tree that counts as current afterwards is the one of the new text. -/
theorem treeOf_of_isCurrent_sample :
    Careful {name | name ∈ ["a.html".toList]} letterDesk writtenLater ∧
      (letterDesk.after writtenLater).views.isCurrent "a.html" = true ∧
      ∃ nodes saved, (letterDesk.after writtenLater).views.disk.entry? (Views.savedPath "a.html") =
          some (.file (Utf8.encode (SavedTree.write nodes)) saved) ∧
        (letterDesk.after writtenLater).views.disk.treeOf "a.html" = .ok nodes := by
  let opened : Set Text := {name | name ∈ ["a.html".toList]}
  have houtside : ∀ name ∈ ["a.html".toList], IsOutside name := by decide +kernel
  have hpast : ∀ path content time, letterPage.entry? path = some (.file content time) →
      time ≤ 100 := Disk.le_of_entries (by decide)
  have hdistinct : Set.InjOn Views.savedFile opened := by
    intro name hname other hother _
    rw [List.mem_singleton.mp hname, List.mem_singleton.mp hother]
  have hflat : ∀ name ∈ opened, ∀ source, letterPage.textOf name = .ok source →
      IsFlat name source := by
    intro name hname source hsource
    obtain rfl := List.mem_singleton.mp hname
    obtain rfl : "A".toList = source := Except.ok.inj (Eq.trans (by decide +kernel) hsource)
    decide +kernel
  have hcareful : Careful opened letterDesk writtenLater := by
    have hmem : "a.html".toList ∈ opened := List.mem_singleton_self _
    have htimely : (letterDesk.after (writtenLater.take 3)).views.Timely opened "a.html"
        (Utf8.encode "B") 200 := by
      constructor
      · exact houtside _ hmem
      · show ∀ other ∈ ["a.html".toList], _
        decide +kernel
      · decide +kernel
      · decide +kernel
      · show ∀ other ∈ ["a.html".toList], _
        decide +kernel
    have hwait : (letterDesk.after (writtenLater.take 2)).views.now ≤ 200 := by decide +kernel
    have hmade : ((letterDesk.after (writtenLater.take 3)).slots 0).tree.isSome = true := by
      decide +kernel
    refine ⟨hmem, trivial, hwait, ⟨htimely, ?_⟩, hmem, trivial, trivial⟩
    -- the one template that has been opened has its tree
    intro slot hloaded htree
    by_cases hslot : slot = 0
    · subst hslot
      have hnone : ((letterDesk.after (writtenLater.take 3)).slots 0).tree = none := htree
      rw [hnone] at hmade
      contradiction
    · have hothers : ∀ own, own = 0 → slot ∉ some own := by
        rintro _ rfl hown
        exact hslot (Option.some.inj hown).symm
      rw [slots_handle _ (Option.not_mem_none slot), slots_handle _ (hothers 0 rfl),
        slots_handle _ (hothers 0 rfl)] at hloaded
      contradiction
  have hmake : Views.make letterPage 100 50 1 [] = .ok letterDesk.views := rfl
  refine ⟨hcareful, by decide +kernel, ?_⟩
  exact treeOf_of_isCurrent hmake hpast (fun _ => rfl) houtside hdistinct hflat hcareful rfl
    (List.mem_singleton_self _) (by decide +kernel)

end Desk
end PageServer
