/-
# The memory while files change

A text in memory is used while its file has the time that it had when it was
read. If two contents of one file never have the same time, and no file turns
into a folder, then nobody can tell that texts are kept: whatever has been kept
or dropped before, a template has the text that its file has now.

* `Stamped`: disks one after another that keep the times apart
* `Template.run_open?`: opening a template that has no saved tree
* `Desk.sources_of_run`: texts and templates are those of the files, after any run
-/
import PageServer.Proofs.Views.Editing

namespace PageServer

/-- Disks one after another on which a time of a file stands for one content, and no file turns
into a folder. -/
structure Stamped (trail : List Disk) : Prop where
  content : ∀ disk ∈ trail, ∀ other ∈ trail, ∀ path content content' time,
    disk.entry? path = some (.file content time) → other.entry? path = some (.file content' time) →
      content = content'
  folder : trail.Pairwise fun disk later => ∀ path content time made,
    disk.entry? path = some (.file content time) → later.entry? path ≠ some (.folder made)

/-- For disks that are given by their entries this can be computed. -/
theorem stamped_of_entries {trail : List Disk}
    (hcontent : ∀ disk ∈ trail, ∀ other ∈ trail, ∀ e ∈ disk.entries, ∀ e' ∈ other.entries,
      e.1 = e'.1 → e.2.modified = e'.2.modified → e.2 = e'.2)
    (hfolder : trail.Pairwise fun disk later => ∀ e ∈ disk.entries, ∀ e' ∈ later.entries,
      e.1 = e'.1 → e'.2 = .folder e'.2.modified → e.2 = .folder e.2.modified) :
    Stamped trail := by
  have hmem : ∀ (disk : Disk) path content time,
      disk.entry? path = some (.file content time) → path ≠ [] := by
    rintro disk _ content time hentry rfl
    exact Entry.noConfusion (Option.some.inj hentry)
  constructor
  · intro disk hdisk other hother path content content' time hentry hentry'
    have hpath := hmem disk path content time hentry
    have hsame := hcontent disk hdisk other hother _ (Disk.mem_of_entry? hentry hpath) _
      (Disk.mem_of_entry? hentry' hpath) rfl rfl
    injection hsame
  · apply hfolder.imp
    intro disk later hpair path content time made hentry hlater
    have hpath := hmem disk path content time hentry
    have hmade := hpair _ (Disk.mem_of_entry? hentry hpath) _ (Disk.mem_of_entry? hlater hpath)
      rfl rfl
    contradiction

/-- **What was read from one of the disks agrees with the last one.** -/
theorem Stamped.agrees {earlier : List Disk} {last : Disk} (h : Stamped (earlier ++ [last]))
    {k : Kept} (hk : ∃ disk ∈ earlier ++ [last], disk.stat? k.name = some (.file k.content k.time)) :
    k.Agrees last := by
  obtain ⟨disk, hdisk, hstat⟩ := hk
  obtain ⟨path, hpath, hentry⟩ := Disk.of_stat? hstat
  have hlast : last ∈ earlier ++ [last] := by simp
  intro entry hnow htime
  obtain ⟨path', hpath', hentry'⟩ := Disk.of_stat? hnow
  obtain rfl : path = path' := Option.some.inj (hpath.symm.trans hpath')
  cases entry with
  | file content time =>
      obtain rfl : time = k.time := htime
      rw [h.content disk hdisk last hlast path k.content content k.time hentry hentry']
  | folder made =>
      -- a file does not turn into a folder, nor is it one
      exfalso
      rcases List.mem_append.mp hdisk with hearlier | hsame
      · have hpair := (List.pairwise_append.mp h.folder).2.2 disk hearlier last
          (List.mem_singleton_self last)
        exact hpair path k.content k.time made hentry hentry'
      · obtain rfl := List.mem_singleton.mp hsame
        rw [hentry] at hentry'
        exact Entry.noConfusion (Option.some.inj hentry')

namespace Template

variable {v : Views} {name : Text}

/-- Opening a template that has no saved tree gives the text of its file, if what is in memory
under its name agrees with it. -/
theorem run_open? (hmaxAge : v.maxAge ≤ 0)
    (hv : ∀ k ∈ v.recent.kept, k.name = name → k.Agrees v.disk) :
    (Action.run (open? name) v).1 =
      (v.disk.textOf name).map fun source =>
        { name, source, loaded := true, fromViews := true } := by
  -- nothing is saved
  have hrecalled := Views.rests_recalled v name
  have hsaved : (v.recalled name).2.savedTree name = (none, (v.recalled name).2) := by
    have hmaxAge' : (v.recalled name).2.maxAge ≤ 0 := by
      rw [hrecalled.maxAge]
      exact hmaxAge
    unfold Views.savedTree Views.saves
    rw [decide_eq_false (by omega)]
    rfl
  have hsought : v.sought name = (v.recalled name).2 := by rw [Views.sought, hsaved]
  have hopen : (Action.run (open? name) v).1 =
      (load {} name v).1.map fun _ => (load {} name v).2.1 := by
    unfold open?
    rw [Action.run_mk]
    rcases load {} name v with ⟨result, t, after⟩
    cases result <;> rfl
  rw [hopen]
  have hfound := load_finds {} name v
  generalize load {} name v = result at hfound
  cases hfound with
  | refused fault hcheck =>
      simp only [Disk.textOf, hcheck]
      rfl
  | memory hcheck source hsource =>
      rw [Views.textOf_of_recalled hv hsource]
      rfl
  | saved hcheck nodes hnodes =>
      rw [hsaved] at hnodes
      contradiction
  | file hcheck source hsource =>
      rw [hsought] at hsource
      rw [← hrecalled.disk, Views.textOf_of_readFile _ hcheck, hsource]
      rfl
  | missing hcheck hsource =>
      rw [hsought] at hsource
      rw [← hrecalled.disk, Views.textOf_of_readFile _ hcheck, hsource]
      rfl

end Template

namespace Desk

/-- **Keeping texts in memory does not show.** However the files are edited and whatever is done
with the templates, if the times of the files tell their contents apart, then a template that is
included has the text that its file has now, and so has one that is opened while no trees are
saved. -/
theorem sources_of_run {files : Disk} {now maxAge : Int} {capacity : Nat} {constants : Constants}
    {views : Views} (hviews : Views.make files now maxAge capacity constants = .ok views)
    {events : List Event} (hstamped : Stamped (trail { views } events)) (name : Text) :
    (Action.run (Views.load name) (after { views } events).views).1 =
        (after { views } events).views.disk.textOf name ∧
      ((after { views } events).views.maxAge ≤ 0 →
        (Action.run (Template.open? name) (after { views } events).views).1 =
          ((after { views } events).views.disk.textOf name).map fun source =>
            { name, source, loaded := true, fromViews := true }) := by
  obtain ⟨earlier, htrail⟩ := trail_eq { views } events
  -- nothing is in memory at the start, and later only what was on one of the disks
  have hstart : views.recent.kept = [] := by rw [Views.eq_of_make hviews]
  have hagrees : (after { views } events).views.Remembers fun k =>
      k.Agrees (after { views } events).views.disk := by
    intro k hk
    rw [htrail] at hstamped
    apply hstamped.agrees
    rw [← htrail]
    revert k
    apply remembers_after
    · intro k hk
      rw [hstart] at hk
      contradiction
    · intro disk hdisk name content time hstat
      exact ⟨disk, hdisk, hstat⟩
  constructor
  · have hserves := Views.load_serves (after { views } events).views Set.univ name trivial
    exact (hserves _ ⟨.refl _, fun k hk _ => hagrees k hk⟩).1
  · intro hmaxAge
    exact Template.run_open? hmaxAge fun k hk _ => hagrees k hk

/-- Views of one page that keep one text and save no trees. -/
def onePage : Views :=
  { disk := { entries := [(["page.html"], .file (Utf8.encode "first") 10)] }, now := 100,
    recent := { capacity := 1 }, maxAge := 0 }

/-- The page is written again, read under two names, deleted, and written once more. -/
def pageEdits : List Event :=
  [.work (.openAt 0 "page.html"), .edit (.write "page.html" (Utf8.encode "second") 20),
    .source "./page.html", .work (.openAt 1 "page.html"), .edit (.delete "page.html"),
    .source "page.html", .edit (.write "page.html" (Utf8.encode "third") 30)]

/-- It has the last text under both names. -/
theorem sources_of_run_sample :
    Views.make onePage.disk 100 0 1 [] = .ok onePage ∧
      Stamped (trail { views := onePage } pageEdits) ∧
      (Action.run (Views.load "./page.html") (after { views := onePage } pageEdits).views).1 =
        .ok "third".toList ∧
      (Action.run (Template.open? "page.html") (after { views := onePage } pageEdits).views).1.map
        Template.source = .ok "third".toList := by
  have hviews : Views.make onePage.disk 100 0 1 [] = .ok onePage := rfl
  have hstamped : Stamped (trail { views := onePage } pageEdits) :=
    stamped_of_entries (by decide +kernel) (by decide +kernel)
  have hmaxAge : (after { views := onePage } pageEdits).views.maxAge ≤ 0 := by decide +kernel
  have hdotted := (sources_of_run hviews hstamped "./page.html").1
  have hpage := (sources_of_run hviews hstamped "page.html").2 hmaxAge
  refine ⟨hviews, hstamped, ?_, ?_⟩
  · rw [hdotted]
    decide +kernel
  · rw [hpage]
    decide +kernel

end Desk
end PageServer
