/-
# How old a page may be

Pages are visited while their files are edited, and each edit leaves its time on
the file. What is in memory of a file that has been edited since has another
time. A saved tree was made from the texts of some moment; of the files that have
not changed since it was saved, the texts are the same now. So a page is the one
that its files give if its own file is older than allowed, unless another file
that it is built from has been edited alone: for that no time is looked at, and
the page may stay as it was.

* `Views.Act`, `Views.live`: visits, edits and new views, each at its time
* `Disk.Held`: what has not changed since some time
* `Views.Dated`: the invariant, by the time of the last visit
* `Views.dated_act`, `Views.dated_live`: one act keeps it, and so do all acts in order
* `Views.visit_of_live`: the page is the one without caches
* `Views.stale_pages`: pages that stay as they were
-/
import PageServer.Proofs.Views.Editing
import PageServer.Proofs.Views.Visits

namespace PageServer

/-! ## What has not changed since some time -/

/-- A disk on which stood, outside the folder of the saved trees, what has not changed since some
time on a later one. -/
def Disk.Held (time : Int) (earlier disk : Disk) : Prop :=
  ∀ path, ¬ Views.IsSaved path → ∀ content changed,
    disk.entry? path = some (.file content changed) → changed ≤ time →
      earlier.entry? path = some (.file content changed)

/-- A file outside that has not changed since was found before, too. -/
theorem Disk.Held.stat?_eq {time : Int} {earlier disk : Disk} (h : Disk.Held time earlier disk)
    {name : Text} (hname : Views.IsOutside name) {content : Bytes} {changed : Int}
    (hfile : disk.stat? name = some (.file content changed)) (hchanged : changed ≤ time) :
    earlier.stat? name = disk.stat? name := by
  obtain ⟨path, hpath, hentry⟩ := Disk.of_stat? hfile
  apply stat?_congr hpath
  rw [hentry]
  exact h path (hname path hpath) content changed hentry hchanged

/-! ## Edits outside the folder of the saved trees -/

namespace Edit

variable {e : Edit} {now : Int} {path : Path} {entry entry' : Option Entry}

/-- An edit of a file outside the folder of the saved trees, which leaves the time of the edit on
the file. -/
structure IsHonest (now : Int) (e : Edit) : Prop where
  time : ∀ time ∈ e.time?, time = now
  outside : Views.IsOutside e.name

instance decidableIsHonest (now : Int) : DecidablePred (IsHonest now) := fun e =>
  decidable_of_iff ((∀ time ∈ e.time?, time = now) ∧ Views.IsOutside e.name)
    ⟨fun ⟨htime, houtside⟩ => ⟨htime, houtside⟩, fun h => ⟨h.time, h.outside⟩⟩

/-- What stands somewhere after an edit stood there before, or has the time of the edit. -/
theorem Changes.eq_or_modified (h : e.Changes now path entry entry')
    (he : ∀ time ∈ e.time?, time = now) {found : Entry} (hfound : entry' = some found) :
    entry' = entry ∨ found.modified = now := by
  cases h with
  | same => exact .inl rfl
  | folder =>
      obtain rfl := Option.some.inj hfound
      exact .inr rfl
  | file _ content time _ htime =>
      obtain rfl := Option.some.inj hfound
      exact .inr (he time htime)
  | gone => contradiction

end Edit

namespace Views

/-! ## Acts in time -/

/-- What is done with views. -/
inductive Act where
  /-- A page is visited. -/
  | visit (name : Text) (vars : Variables)
  /-- The files are edited. -/
  | edit (e : Edit)
  /-- The views are replaced by new ones of the same folder. -/
  | renew (maxAge : Int) (capacity : Nat) (constants : Constants)

/-- The page that is visited, if any. -/
def Act.visits : Act → Option Text
  | visit name _ => some name
  | _ => none

/-- The edit that is made, if any. -/
def Act.edits : Act → Option Edit
  | edit e => some e
  | _ => none

/-- The views after something has been done. -/
def act (v : Views) : Act → Views
  | .visit name vars => (v.visit name vars).2
  | .edit e => { v with disk := e.apply v.now v.disk }
  | .renew maxAge capacity constants =>
    match Views.make v.disk v.now maxAge capacity constants with
    | .ok made => made
    | .error _ => v

/-- The views at some time. -/
def atTime (now : Int) (v : Views) : Views := { v with now }

/-- The views after several things have been done, each at its time. -/
def live : Views → List (Int × Act) → Views
  | v, [] => v
  | v, (now, a) :: rest => live ((v.atTime now).act a) rest

/-- Acts in the order of their times, from some time on. The edits are honest, and an edit that
follows a visit is made at a later time. -/
structure InOrder (start : Int) (acts : List (Int × Act)) : Prop where
  start_le : ∀ m ∈ acts, start ≤ m.1
  honest : ∀ m ∈ acts, ∀ e ∈ m.2.edits, e.IsHonest m.1
  sorted : acts.Pairwise fun m m' => m.1 ≤ m'.1
  later : acts.Pairwise fun m m' => m.2.visits.isSome → m'.2.edits.isSome → m.1 < m'.1

/-! ## The invariant -/

/-- What a saved file holds: the tree of one of some templates, made when the files were as on
some disk, which held what has not changed since. -/
def SavedOnce (visited : Set Text) (last : Int) (disk : Disk) (file : Text) (entry : Entry) :
    Prop :=
  ∃ maker ∈ visited, savedFile maker = file ∧ ∃ nodes time earlier,
    entry = .file (Utf8.encode (SavedTree.write nodes)) time ∧ time ≤ last ∧
      Disk.Held time earlier disk ∧ MadeFrom earlier maker nodes

/-- Views that were visited last at some time: no file is of a time to come, what is in memory was
read by then and agrees with the files, and what is saved was saved by then. -/
structure Dated (visited : Set Text) (last : Int) (v : Views) : Prop where
  last_le : last ≤ v.now
  files : ∀ path content time, v.disk.entry? path = some (.file content time) → time ≤ v.now
  kept : v.Remembers fun k => k.time ≤ last ∧ AgreesOutside v.disk k
  saved : ∀ file entry, v.disk.entry? [savedFolder, file] = some entry →
    SavedOnce visited last v.disk file entry

variable {visited : Set Text} {last now start : Int} {v : Views} {name : Text} {e : Edit}

/-- A change of the files outside that keeps what has not changed since the last visit. -/
theorem SavedOnce.of_held {disk : Disk} {file : Text} {entry : Entry}
    (h : SavedOnce visited last v.disk file entry)
    (hheld : Disk.Held last v.disk disk) : SavedOnce visited last disk file entry := by
  obtain ⟨maker, hmaker, hfile, nodes, time, earlier, hentry, htime, hearlier, hmade⟩ := h
  refine ⟨maker, hmaker, hfile, nodes, time, earlier, hentry, htime, ?_, hmade⟩
  intro path hpath content changed hnow hchanged
  exact hearlier path hpath content changed
    (hheld path hpath content changed hnow (hchanged.trans htime)) hchanged

/-- Time passes. -/
theorem Dated.atTime (hv : v.Dated visited last) (h : v.now ≤ now) :
    (v.atTime now).Dated visited last :=
  ⟨hv.last_le.trans h, fun path content time hentry => (hv.files path content time hentry).trans h,
    hv.kept, hv.saved⟩

/-- A visit. -/
theorem Dated.visit (hv : v.Dated visited last) (hname : name ∈ visited) (vars : Variables) :
    (v.visit name vars).2.Dated visited v.now := by
  have hagrees : v.Remembers (AgreesOutside v.disk) := fun k hk => (hv.kept k hk).2
  have hvisit := upkeeps_visit hagrees name vars
  have hload := Template.upkeeps_load (P := fun _ => True) {} name v
  constructor
  · exact hvisit.now.ge
  · rw [hvisit.now]
    exact hvisit.files hv.files
  · -- what is read now agrees with the files, which have no time to come
    have hkept : (v.visit name vars).2.Remembers fun k =>
        k.time ≤ v.now ∧ AgreesOutside v.disk k := by
      apply remembers_visit
      · intro k hk
        obtain ⟨htime, hk⟩ := hv.kept k hk
        exact ⟨htime.trans hv.last_le, hk⟩
      · intro other content time hstat
        obtain ⟨path, -, hentry⟩ := Disk.of_stat? hstat
        refine ⟨hload.files hv.files path content time hentry, fun hother => ?_⟩
        rw [hload.stat?_eq hother] at hstat
        exact Kept.agrees_of_stat? hstat
    intro k hk
    obtain ⟨htime, hk⟩ := hkept k hk
    refine ⟨htime, fun hother entry hentry => ?_⟩
    rw [hvisit.stat?_eq hother] at hentry
    exact hk hother entry hentry
  · intro file entry hentry
    have hheld : ∀ time, Disk.Held time v.disk (v.visit name vars).2.disk := by
      intro time path hpath content changed hfile _
      rw [← (hvisit.entry path).eq_of_outside hpath]
      exact hfile
    rcases hvisit.saved_cases hentry with hbefore | ⟨rfl, nodes, hnodes, rfl⟩
    · obtain ⟨maker, hmaker, hfile, nodes, time, earlier, hmade, htime, hearlier⟩ :=
        (hv.saved file entry hbefore).of_held (hheld last)
      exact ⟨maker, hmaker, hfile, nodes, time, earlier, hmade, htime.trans hv.last_le, hearlier⟩
    · exact ⟨name, hname, rfl, nodes, v.now, v.disk, rfl, le_rfl, hheld v.now, hnodes⟩

/-- An edit. -/
theorem Dated.edit (hv : v.Dated visited last) (hlast : last < v.now) (he : e.IsHonest v.now) :
    Dated visited last { v with disk := e.apply v.now v.disk } := by
  have hchanges := e.changes_apply v.now v.disk
  -- what is not of this time was there before
  have hold : ∀ path found, Disk.entry? (e.apply v.now v.disk) path = some found →
      v.disk.entry? path = some found ∨ found.modified = v.now := by
    intro path found hfound
    rcases (hchanges path).eq_or_modified he.time hfound with hsame | hnow
    · rw [← hsame]
      exact .inl hfound
    · exact .inr hnow
  have hheld : Disk.Held last v.disk (e.apply v.now v.disk) := by
    intro path _ content changed hfile hchanged
    rcases hold path _ hfile with hsame | hnow
    · exact hsame
    · have hchangedNow : changed = v.now := hnow
      omega
  constructor
  · exact hv.last_le
  · intro path content time hfile
    rcases hold path _ hfile with hsame | hnow
    · exact hv.files path content time hsame
    · exact hnow.le
  · intro k hk
    obtain ⟨htime, hagrees⟩ := hv.kept k hk
    refine ⟨htime, fun hother entry hentry hmodified => ?_⟩
    obtain ⟨path, hpath, hfound⟩ := Disk.of_stat? hentry
    -- what has been edited has a later time than what is in memory
    rcases hold path entry hfound with hsame | hnow
    · apply hagrees hother entry _ hmodified
      rw [← hentry]
      exact Disk.stat?_congr hpath (hsame.trans hfound.symm)
    · omega
  · intro file entry hentry
    have hsame := (hchanges [savedFolder, file]).eq_of_saved he.outside rfl
    rw [hsame] at hentry
    exact (hv.saved file entry hentry).of_held hheld

/-- New views. -/
theorem Dated.renew (hv : v.Dated visited last) {maxAge : Int} {capacity : Nat}
    {constants : Constants} {made : Views}
    (h : Views.make v.disk v.now maxAge capacity constants = .ok made) :
    made.Dated visited last := by
  have hnow : made.now = v.now := by rw [eq_of_make h]
  have hrecent : made.recent.kept = [] := by rw [eq_of_make h]
  -- nothing is new but a folder
  have hentries : ∀ path found, made.disk.entry? path = some found →
      v.disk.entry? path = some found ∨ path = [savedFolder] ∧ found = .folder v.now := by
    intro path found hfound
    rcases entry?_of_make h path with hsame | ⟨hpath, -, hfolder⟩
    · rw [← hsame]
      exact .inl hfound
    · rw [hfolder] at hfound
      exact .inr ⟨hpath, (Option.some.inj hfound).symm⟩
  have hfiles : ∀ path content time, made.disk.entry? path = some (.file content time) →
      v.disk.entry? path = some (.file content time) := by
    intro path content time hfile
    rcases hentries path _ hfile with hsame | ⟨-, hfolder⟩
    · exact hsame
    · contradiction
  constructor
  · rw [hnow]
    exact hv.last_le
  · rw [hnow]
    intro path content time hfile
    exact hv.files path content time (hfiles path content time hfile)
  · intro k hk
    rw [hrecent] at hk
    contradiction
  · intro file entry hentry
    rcases hentries _ entry hentry with hsame | ⟨hpath, -⟩
    · apply (hv.saved file entry hsame).of_held
      intro path _ content changed hfile _
      exact hfiles path content changed hfile
    · simp at hpath

/-- Replacing views makes new ones, or does nothing if that is not possible. -/
theorem act_renew (v : Views) (maxAge : Int) (capacity : Nat) (constants : Constants) :
    v.act (.renew maxAge capacity constants) = v ∨
      Views.make v.disk v.now maxAge capacity constants =
        .ok (v.act (.renew maxAge capacity constants)) := by
  simp only [act]
  split
  · rename_i made hmake
    exact .inr hmake
  · exact .inl rfl

/-- **One act keeps the invariant**, and takes no time. -/
theorem dated_act (hv : v.Dated visited last) {a : Act} (hvisits : ∀ name ∈ a.visits, name ∈ visited)
    (hedits : ∀ e ∈ a.edits, e.IsHonest v.now ∧ last < v.now) :
    (v.act a).Dated visited (if a.visits.isSome then v.now else last) ∧ (v.act a).now = v.now := by
  cases a with
  | visit name vars =>
      have hagrees : v.Remembers (AgreesOutside v.disk) := fun k hk => (hv.kept k hk).2
      exact ⟨hv.visit (hvisits name rfl) vars, (upkeeps_visit hagrees name vars).now⟩
  | edit e =>
      obtain ⟨hhonest, hlast⟩ := hedits e rfl
      exact ⟨hv.edit hlast hhonest, rfl⟩
  | renew maxAge capacity constants =>
      rcases v.act_renew maxAge capacity constants with hsame | hmake
      · rw [hsame]
        exact ⟨hv, rfl⟩
      · refine ⟨hv.renew hmake, ?_⟩
        rw [eq_of_make hmake]

/-- **So do all acts in order**, which take no longer than until the last one. -/
theorem dated_live {acts : List (Int × Act)} (hv : v.Dated visited last)
    (hacts : InOrder v.now acts) (hlast : ∀ m ∈ acts, m.2.edits.isSome → last < m.1)
    (hvisited : ∀ m ∈ acts, ∀ name ∈ m.2.visits, name ∈ visited)
    (hnow : ∀ m ∈ acts, m.1 ≤ now) (hstart : v.now ≤ now) :
    ∃ last, (v.live acts).Dated visited last ∧ (v.live acts).now ≤ now := by
  induction acts generalizing v last with
  | nil => exact ⟨last, hv, hstart⟩
  | cons m rest ih =>
      obtain ⟨time, a⟩ := m
      obtain ⟨htime, -⟩ := List.forall_mem_cons.mp hacts.start_le
      obtain ⟨hhonest, hhonestRest⟩ := List.forall_mem_cons.mp hacts.honest
      obtain ⟨hsorted, hsortedRest⟩ := List.pairwise_cons.mp hacts.sorted
      obtain ⟨hlater, hlaterRest⟩ := List.pairwise_cons.mp hacts.later
      obtain ⟨hlastHere, hlastRest⟩ := List.forall_mem_cons.mp hlast
      obtain ⟨hvisits, hvisitedRest⟩ := List.forall_mem_cons.mp hvisited
      obtain ⟨hnowHere, hnowRest⟩ := List.forall_mem_cons.mp hnow
      obtain ⟨hafter, hafterNow⟩ := dated_act (hv.atTime htime) hvisits fun e he =>
        ⟨hhonest e he, hlastHere (Option.isSome_of_mem he)⟩
      have hafterTime : ((v.atTime time).act a).now = time := hafterNow
      apply ih hafter
      -- the acts that are left come after this one, and their edits after the last visit
      · rw [hafterTime]
        exact ⟨hsorted, hhonestRest, hsortedRest, hlaterRest⟩
      · intro m hm hedits
        split_ifs with hvisit
        · exact hlater m hm hvisit hedits
        · exact hlastRest m hm hedits
      · exact hvisitedRest
      · exact hnowRest
      · rw [hafterTime]
        exact hnowHere

/-- Views of files without saved trees, none of a time to come, have not been visited yet. -/
theorem dated_of_make {files : Disk} {maxAge : Int} {capacity : Nat} {constants : Constants}
    {made : Views} (h : Views.make files start maxAge capacity constants = .ok made)
    (hpast : ∀ path content time, files.entry? path = some (.file content time) → time ≤ start)
    (hempty : ∀ file, files.entry? [savedFolder, file] = none) :
    made.Dated visited (start - 1) := by
  let views : Views := { disk := files, now := start, recent := { capacity }, maxAge, constants }
  have hviews : views.Dated visited (start - 1) := by
    constructor
    · exact (Int.sub_lt_self start one_pos).le
    · exact hpast
    · intro k hk
      contradiction
    · intro file entry hentry
      rw [hempty] at hentry
      contradiction
  exact hviews.renew h

/-! ## The age of a page -/

/-- **A saved tree is that of the files**, if it is used although the file of its template is older
than allowed, and if nothing that the template includes has been changed since. -/
theorem Dated.treeOf_eq (hv : v.Dated visited last) {names : Set Text}
    (hclosed : IncludeClosed names v.disk.textOf) (houtside : ∀ other ∈ names, IsOutside other)
    (hname : name ∈ names) (hdistinct : ∀ other ∈ visited, savedFile other = savedFile name →
      other = name)
    {content : Bytes} {time : Int} (hfile : v.disk.stat? name = some (.file content time))
    (hage : time + v.maxAge ≤ v.now)
    (hincluded : ∀ tree saved, v.disk.entry? (savedPath name) = some (.file tree saved) →
      time ≤ saved → ∀ other ∈ names, ∃ content changed,
        v.disk.stat? other = some (.file content changed) ∧ changed ≤ saved)
    (hreads : ∀ nodes, v.disk.treeOf name = .ok nodes → NodesLiterals Value.ReadsBack nodes)
    {nodes : List Node} (h : ((v.recalled name).2.savedTree name).1 = some nodes) :
    v.disk.treeOf name = .ok nodes := by
  have hrests := rests_recalled v name
  obtain ⟨tree, text, saved, hentry, hexpired, htext, hread⟩ := of_savedTree h
  rw [hrests.disk] at hentry
  -- the saved tree is not older than the file
  have hsaved : time ≤ saved := by
    unfold isExpired age at hexpired
    rw [hrests.disk, hfile, hrests.maxAge, hrests.now] at hexpired
    have hnot : ¬ (saved < time ∧ v.maxAge ≤ max (v.now - saved) 0) := of_decide_eq_false hexpired
    by_contra hlt
    exact hnot ⟨by omega, by omega⟩
  obtain ⟨maker, hmaker, hsame, made, savedTime, earlier, htree, -, hearlier, hmade⟩ :=
    hv.saved _ _ hentry
  obtain ⟨rfl, rfl⟩ := Entry.file.inj htree
  obtain rfl := hdistinct maker hmaker hsame
  -- the texts that it was made from are those of now
  have htexts : ∀ other ∈ names, earlier.textOf other = v.disk.textOf other := by
    intro other hother
    obtain ⟨content, changed, hstat, hchanged⟩ := hincluded _ _ hentry hsaved other hother
    exact Disk.textOf_congr (hearlier.stat?_eq (houtside other hother) hstat hchanged)
  have hnodes : v.disk.treeOf maker = .ok made := by
    rw [← Disk.treeOf_congr hclosed htexts hname]
    exact hmade names (hclosed.congr htexts) houtside hname
  -- and it is read as it was written
  rw [Utf8.decode?_encode] at htext
  obtain rfl := Option.some.inj htext
  have hexact := nodesLiterals_of (fun v => Value.exact_of_isScalar) made
    (Disk.treeOf_literals hnodes) (hreads made hnodes)
  rw [SavedTree.eq_of_read?_write hexact hread]
  exact hnodes

/-- **A page is not older than allowed.** After acts in order, over files that had no saved trees
at the start and none of a time to come, a visit makes the page that it makes without caches, if
the file of its template was changed at least as long ago as a saved tree may be used, and no
other template that was visited shares its saved file; and if the saved tree of the template is
older than its file, or else is not older than any file that the template includes. The
floating-point numbers of its conditions have to be read as they are written. -/
theorem visit_of_live {files : Disk} {maxAge : Int} {capacity : Nat} {constants : Constants}
    {made : Views} (hmake : Views.make files start maxAge capacity constants = .ok made)
    (hpast : ∀ path content time, files.entry? path = some (.file content time) → time ≤ start)
    (hempty : ∀ file, files.entry? [savedFolder, file] = none) {acts : List (Int × Act)}
    (hacts : InOrder start acts) (hstart : start ≤ now) (hnow : ∀ m ∈ acts, m.1 ≤ now)
    (hv : v = (made.live acts).atTime now) {names : Set Text}
    (hclosed : IncludeClosed names v.disk.textOf) (houtside : ∀ other ∈ names, IsOutside other)
    (hname : name ∈ names)
    (hdistinct : ∀ m ∈ acts, ∀ other ∈ m.2.visits, savedFile other = savedFile name → other = name)
    {content : Bytes} {time : Int} (hfile : v.disk.stat? name = some (.file content time))
    (hage : time + v.maxAge ≤ now)
    (hincluded : ∀ tree saved, v.disk.entry? (savedPath name) = some (.file tree saved) →
      time ≤ saved → ∀ other ∈ names, ∃ content changed,
        v.disk.stat? other = some (.file content changed) ∧ changed ≤ saved)
    (hreads : ∀ nodes, v.disk.treeOf name = .ok nodes → NodesLiterals Value.ReadsBack nodes)
    (vars : Variables) : (v.visit name vars).1 = (v.uncached.visit name vars).1 := by
  -- before the first visit everything counts as edited
  let visited : Set Text := {other | ∃ m ∈ acts, other ∈ m.2.visits}
  have hmadeNow : made.now = start := by rw [eq_of_make hmake]
  have hdated : made.Dated visited (start - 1) := dated_of_make hmake hpast hempty
  rw [← hmadeNow] at hacts hstart
  obtain ⟨last, hafter, hafterNow⟩ := dated_live hdated hacts
    (fun m hm _ => by have := hacts.start_le m hm; omega) (fun m hm other hother => ⟨m, hm, hother⟩)
    hnow hstart
  have hviews : v.Dated visited last := by
    rw [hv]
    exact hafter.atTime hafterNow
  have hviewsNow : v.now = now := by
    rw [hv]
    rfl
  -- both visits make the page that the files give
  rw [visit_uncached hclosed houtside hname]
  apply visit_eq_page (fun k hk => (hviews.kept k hk).2) hclosed houtside hname
  intro nodes hnodes
  rw [← hviewsNow] at hage
  apply hviews.treeOf_eq hclosed houtside hname _ hfile hage hincluded hreads hnodes
  rintro other ⟨m, hm, hother⟩
  exact hdistinct m hm other hother

/-! ## Pages that stay as they were, and one that does not -/

/-- A page that includes another one. -/
def includingPage : List (Path × Entry) :=
  [(["page.html"], .file (Utf8.encode "\x7bINCLUDE: part.html\x7d") 1),
    (["part.html"], .file (Utf8.encode "old") 1)]

/-- A page that includes the saved file of another one. -/
def savedIncludingPage : List (Path × Entry) :=
  [(["page.html"], .file (Utf8.encode "\x7bINCLUDE: cached/parsed_part.html\x7d") 1),
    (["part.html"], .file (Utf8.encode "old") 1)]

/-- A page that compares with a floating-point number. -/
def comparingPage : List (Path × Entry) :=
  [(["page.html"], .file (Utf8.encode
    "\x7bIF: COUNT eq 0.00000000000000000000001\x7dsame\x7bELSE:\x7dother\x7b/IF\x7d") 1)]

/-- The number that it compares with. -/
def comparedVars : Variables := Variables.set {} "COUNT" (.float (.ofDecimal false 1 (-23)))

/-- The included page is edited after the visit. -/
def editOfPart : List (Int × Act) :=
  [(10, .visit "page.html" {}), (20, .edit (.write "part.html" (Utf8.encode "new") 20))]

/-- The page is edited at the time of the visit. -/
def editAtOnce : List (Int × Act) :=
  [(10, .visit "page.html" {}), (10, .edit (.write "page.html" (Utf8.encode "new") 10))]

/-- The saved file of the page is edited. -/
def editOfSaved : List (Int × Act) :=
  [(10, .edit (.write "cached/parsed_page.html" (Utf8.encode "[]") 10))]

/-- The page is visited at the time at which the saved file that it includes is written anew. -/
def visitsAtOnce : List (Int × Act) :=
  [(10, .visit "part.html" {}), (20, .edit (.write "part.html" (Utf8.encode "new") 20)),
    (70, .visit "page.html" {}), (70, .visit "part.html" {})]

/-- The page is visited, and the views are replaced. -/
def visitAndRenew : List (Int × Act) :=
  [(10, .visit "page.html" comparedVars), (20, .renew 50 1 [])]

/-- Views of some pages from time 5 on, with room for one text and for trees that may be used for
50 seconds, at time 200 after some acts. -/
def laterViews (pages : List (Path × Entry)) (acts : List (Int × Act)) : Views :=
  match Views.make { entries := pages } 5 50 1 [] with
  | .ok made => (made.live acts).atTime 200
  | .error _ => default

/-- Some pages, what is done with them, and the variables of a last visit. -/
def staleRuns : List (List (Path × Entry) × List (Int × Act) × Variables) :=
  [(includingPage, editOfPart, {}), (includingPage, editAtOnce, {}),
    (includingPage, editOfSaved, {}), (savedIncludingPage, visitsAtOnce, {}),
    (comparingPage, visitAndRenew, comparedVars)]

/-- **Pages may stay as they were for ever.** Although all edits leave their times on the files and
all files are older than a saved tree may be, a visit makes another page than without caches: if
only an included file has been edited, if the file was edited at the very time of a visit, if the
saved file itself was edited, if the page includes a saved file, and if a floating-point number is
not read as it was written. -/
theorem stale_pages :
    (∀ run ∈ staleRuns, run.2.1.Pairwise (fun m m' => m.1 ≤ m'.1) ∧
        (∀ m ∈ run.2.1, ∀ e ∈ m.2.edits, ∀ time ∈ e.time?, time = m.1) ∧
        (laterViews run.1 run.2.1).maxAge = 50 ∧ (laterViews run.1 run.2.1).now = 200 ∧
        ∀ entry ∈ (laterViews run.1 run.2.1).disk.entries, entry.2.modified + 50 ≤ 200) ∧
      (staleRuns.map fun run => ((laterViews run.1 run.2.1).visit "page.html" run.2.2).1) =
        [.ok "old".toList, .ok "old".toList, .ok [],
          .ok "[\x7b\"Text\":\"old\"\x7d]".toList, .ok "other".toList] ∧
      (staleRuns.map fun run =>
          ((laterViews run.1 run.2.1).uncached.visit "page.html" run.2.2).1) =
        [.ok "new".toList, .ok "new".toList, .ok "old".toList,
          .ok "[\x7b\"Text\":\"new\"\x7d]".toList, .ok "same".toList] := by
  decide +kernel

/-- The included page is edited, and then the page that includes it is touched. -/
def editOfBoth : List (Int × Act) :=
  [(10, .visit "page.html" {}), (20, .edit (.write "part.html" (Utf8.encode "new") 20)),
    (30, .edit (.touch "page.html" 30))]

/-- Then the page is the new one. -/
theorem visit_of_live_sample :
    InOrder 5 editOfBoth ∧
      ((laterViews includingPage editOfBoth).visit "page.html" {}).1 =
        ((laterViews includingPage editOfBoth).uncached.visit "page.html" {}).1 ∧
      ((laterViews includingPage editOfBoth).visit "page.html" {}).1 = .ok "new".toList := by
  have hacts : InOrder 5 editOfBoth := by
    constructor
    · decide
    · decide +kernel
    · decide
    · decide
  have hpast : ∀ path content time, Disk.entry? { entries := includingPage } path =
      some (.file content time) → time ≤ 5 :=
    Disk.le_of_entries (by decide)
  have hclosed : IncludeClosed {name | name ∈ ["page.html".toList, "part.html".toList]}
      (laterViews includingPage editOfBoth).disk.textOf :=
    includeClosed_of_list (by decide +kernel)
  have houtside : ∀ name ∈ ["page.html".toList, "part.html".toList], IsOutside name := by
    decide +kernel
  have hdistinct : ∀ m ∈ editOfBoth, ∀ other ∈ m.2.visits,
      savedFile other = savedFile "page.html" → other = "page.html" := by decide +kernel
  have hfile : (laterViews includingPage editOfBoth).disk.stat? "page.html" =
      some (.file (Utf8.encode "\x7bINCLUDE: part.html\x7d") 30) := by decide +kernel
  have hmaxAge : (laterViews includingPage editOfBoth).maxAge = 50 := by decide +kernel
  have hsaved : (laterViews includingPage editOfBoth).disk.entry? (savedPath "page.html") =
      some (.file (Utf8.encode "[\x7b\"Text\":\"old\"\x7d]") 10) := by decide +kernel
  have hreads : ∀ nodes ∈ ((laterViews includingPage editOfBoth).disk.treeOf "page.html").toOption,
      NodesLiterals Value.ReadsBack nodes := by decide +kernel
  refine ⟨hacts, ?_, by decide +kernel⟩
  refine visit_of_live (v := laterViews includingPage editOfBoth)
    (make_eq one_ne_zero { entries := includingPage } 5 50 []) hpast (fun _ => rfl) hacts
    (by decide) (by decide) rfl hclosed houtside List.mem_cons_self hdistinct hfile ?_ ?_ ?_ {}
  · rw [hmaxAge]
    decide
  · -- the saved tree is older than the page
    intro tree saved hentry hage
    rw [hsaved] at hentry
    obtain ⟨-, rfl⟩ := Entry.file.inj (Option.some.inj hentry)
    exact absurd hage (by decide)
  · intro nodes hnodes
    apply hreads nodes
    rw [hnodes]
    rfl

end Views
end PageServer
