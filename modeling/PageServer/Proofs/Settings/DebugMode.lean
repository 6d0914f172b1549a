/-
# Debug mode

In debug mode no trees are to be saved. The settings of a document keep to this,
whatever the document says. Settings that are changed afterwards, or that were
made without a document, do not: the time for saved trees stays what it was when
debug mode is switched on, and may be set again.

* `Settings.Start`, `Settings.Change`, `Settings.changed`: how settings are made
* `Settings.field_changed`: a setting is what it was last changed to
* `Settings.Overlooks`: the changes after which trees are saved in debug mode
* `Settings.debug_unsaved_iff`: views with any settings, and what debug mode does to them
* `Settings.debug_overlooked`: an old page in debug mode
-/
import PageServer.Proofs.Views.Uncached
import PageServer.Site.Basic

namespace PageServer.Settings

/-! ## Settings and their changes -/

/-- What settings start from. -/
inductive Start where
  /-- The settings that hold without a document. -/
  | usual
  /-- The settings of a document. -/
  | document (t : Text)

/-- The settings at the start. -/
def Start.settings : Start → Settings
  | usual => {}
  | document t => ofText t

/-- A change of settings. -/
inductive Change where
  /-- Another folder of templates. -/
  | viewsFolder (folder : Text)
  /-- Another time for saved trees. -/
  | maxAge (time : Int)
  /-- Debug mode on or off. -/
  | debug (on : Bool)
  /-- One more replacement of routes. -/
  | reroute (source target : Text)
  /-- One more constant. -/
  | constant (name value : Text)

namespace Change

/-- The settings after a change. -/
def apply (settings : Settings) : Change → Settings
  | viewsFolder folder => settings.withViewsFolder folder
  | maxAge time => settings.withMaxAge time
  | debug on => settings.withDebug on
  | reroute source target => settings.withReroute source target
  | constant name value => settings.withConstant name value

/-- The time for saved trees that is set. -/
def maxAge? : Change → Option Int
  | maxAge time => some time
  | _ => none

end Change

/-- The settings after some changes. -/
def changed (settings : Settings) (changes : List Change) : Settings :=
  changes.foldl Change.apply settings

/-- **A setting is what it was last changed to**, or else what it was at the start. -/
theorem field_changed {α : Type} (field : Settings → α) (change? : Change → Option α)
    (happly : ∀ settings change,
      field (Change.apply settings change) = (change? change).getD (field settings))
    (settings : Settings) (changes : List Change) :
    field (settings.changed changes) =
      (changes.filterMap change?).getLast?.getD (field settings) := by
  induction changes generalizing settings with
  | nil => rfl
  | cons change rest ih =>
      show field ((Change.apply settings change).changed rest) = _
      rw [ih, happly]
      cases hchange : change? change with
      | none => rw [List.filterMap_cons_none hchange, Option.getD_none]
      | some value =>
          rw [List.filterMap_cons_some hchange, List.getLast?_cons]
          rfl

/-- The time for saved trees after some changes. -/
theorem maxAge_changed (settings : Settings) (changes : List Change) :
    (settings.changed changes).maxAge =
      (changes.filterMap Change.maxAge?).getLast?.getD settings.maxAge := by
  apply field_changed Settings.maxAge
  intro settings change
  cases change <;> rfl

/-- No change changes the number of texts that are kept. -/
theorem capacity_changed (settings : Settings) (changes : List Change) :
    (settings.changed changes).capacity = settings.capacity := by
  rw [field_changed Settings.capacity (fun _ => none)]
  · rw [List.filterMap_none]
    rfl
  · intro settings change
    cases change <;> rfl

/-- At the start some texts are kept. -/
theorem Start.capacity_pos (start : Start) : 1 ≤ start.settings.capacity := by
  cases start with
  | usual => decide
  | document t =>
      show 1 ≤ (corrected _).capacity
      unfold corrected
      dsimp only
      split_ifs with hzero
      · decide
      · omega

/-- At the start no trees are saved in debug mode. -/
theorem Start.maxAge_of_debug {start : Start} (h : start.settings.debug = true) :
    start.settings.maxAge ≤ 0 := by
  cases start with
  | usual => contradiction
  | document t =>
      replace h : (corrected _).debug = true := h
      show (corrected _).maxAge ≤ 0
      unfold corrected at h ⊢
      dsimp only at h ⊢
      split_ifs with hsaves
      · exact le_refl 0
      · exact Int.not_lt.mp fun hpositive => hsaves ⟨h, hpositive⟩

/-! ## Views with these settings -/

/-- Changes after which trees are saved, debug mode or not: a positive time for them was set last,
or none was set and debug mode was not yet on at the start. -/
def Overlooks (start : Settings) (changes : List Change) : Prop :=
  match (changes.filterMap Change.maxAge?).getLast? with
  | some time => 0 < time
  | none => start.debug = false ∧ 0 < start.maxAge

/-- Settings with debug mode at the start keep to it if no time is set. -/
theorem not_overlooks {start : Settings} {changes : List Change} (hdebug : start.debug = true)
    (hnone : changes.filterMap Change.maxAge? = []) : ¬ Overlooks start changes := by
  rw [Overlooks, hnone]
  rintro ⟨hoff, -⟩
  rw [hdebug] at hoff
  contradiction

/-- **Trees are saved in debug mode exactly if the changes overlook it.** Whatever settings are made
of a document or without one and changed in whatever way, views with these settings can be made for
any files. In debug mode they save trees exactly if the changes overlook it. If they save none, then
the files are left as they are, and saved trees play no part in any work with these views. -/
theorem debug_unsaved_iff (start : Start) (changes : List Change) (disk : Disk) (now : Int) :
    1 ≤ (start.settings.changed changes).capacity ∧
      ∃ views, Site.viewsOf (start.settings.changed changes) disk now = .ok views ∧
        ((start.settings.changed changes).debug = true →
          (views.saves = false ↔ ¬ Overlooks start.settings changes)) ∧
        (views.saves = false →
          views.disk = disk ∧ ∀ slots, Desk.IsUncached { views, slots }) := by
  have hcapacity : 1 ≤ (start.settings.changed changes).capacity := by
    rw [capacity_changed]
    exact start.capacity_pos
  refine ⟨hcapacity, _, Views.make_eq (Nat.one_le_iff_ne_zero.mp hcapacity) .., ?_, ?_⟩
  · intro _
    rw [Views.saves, decide_eq_false_iff_not]
    apply not_congr
    dsimp only
    rw [maxAge_changed, Overlooks]
    cases (changes.filterMap Change.maxAge?).getLast? with
    | some time => rfl
    | none =>
        -- a time from the start is positive only without debug mode
        refine ⟨fun hpositive => ⟨?_, hpositive⟩, fun h => h.2⟩
        rw [Option.getD_none] at hpositive
        rw [Bool.eq_false_iff]
        intro hdebug
        have hmaxAge := start.maxAge_of_debug hdebug
        omega
  · intro hsaves
    rw [Views.saves, decide_eq_false_iff_not] at hsaves
    exact ⟨if_neg hsaves, fun slots => Desk.isUncached_of_unsaved (Int.not_lt.mp hsaves)⟩

/-- A page beside which the tree of another page is saved. -/
def savedPage : Disk :=
  { entries :=
      [(["index.html"], .file (Utf8.encode "one") 10),
       (["cached", "parsed_index.html"], .file (Utf8.encode "[\x7b\"Text\":\"old\"\x7d]") 20),
       (["cached"], .folder 5)] }

/-- The page is made, written anew at a later time, and made again. -/
def rewritten : List Desk.Event :=
  [.work (.openAt 0 "index.html"), .work (.compile 0),
    .edit (.write "index.html" (Utf8.encode "two") 160),
    .work (.openAt 1 "index.html"), .work (.compile 1)]

/-- A document that asks for debug mode, for saved trees, and for no texts in memory. -/
def debugDocument : Text :=
  "views_dir = \"views\"\nport = 7878\nworker_threads = 1\ncache_size = 0\nlocal = true\n" ++
    "template_cache_time = 600\ndebug = true\n"

/-- With the settings of the document and one more constant, the saved tree plays no part. -/
theorem debug_unsaved_sample :
    let settings := (Start.document debugDocument).settings.changed [.constant "SITE" "Demo"]
    settings.debug = true ∧ 1 ≤ settings.capacity ∧
      ∃ views, Site.viewsOf settings savedPage 100 = .ok views ∧ views.saves = false ∧
        views.disk = savedPage ∧
        Desk.replies { views } rewritten = Uncached.replies { views } rewritten := by
  intro settings
  have hdebug : settings.debug = true := by decide +kernel
  have hstart : (Start.document debugDocument).settings.debug = true := by decide +kernel
  obtain ⟨hcapacity, views, hviews, hunsaved, huncached⟩ :=
    debug_unsaved_iff (.document debugDocument) [.constant "SITE" "Demo"] savedPage 100
  have hsaves : views.saves = false := (hunsaved hdebug).mpr (not_overlooks hstart rfl)
  obtain ⟨hdisk, hruns⟩ := huncached hsaves
  exact ⟨hdebug, hcapacity, views, hviews, hsaves, hdisk, (hruns _ rewritten (by decide)).1⟩

/-- A page without a saved tree. -/
def newPage : Disk :=
  { entries := [(["index.html"], .file (Utf8.encode "one") 10), (["cached"], .folder 5)] }

/-- The views with the usual settings and debug mode. -/
def debugViews : Views :=
  { disk := newPage, now := 100, recent := { capacity := 64 }, maxAge := 300 }

/-- The page of a reply, if one was asked for and made. -/
def pageOf : Desk.Reply → Option Text
  | .answer (.page result) => result.toOption
  | _ => none

/-- **In debug mode trees may be saved, and old pages served.** If debug mode is switched on and
nothing else is set, the tree of a page is saved, and a page that is written anew stays the old one;
without saved trees it would be the new one. -/
theorem debug_overlooked :
    (Start.usual.settings.changed [.debug true]).debug = true ∧
      Site.viewsOf (Start.usual.settings.changed [.debug true]) newPage 100 = .ok debugViews ∧
      debugViews.saves = true ∧
      (Desk.after { views := debugViews } rewritten).views.disk.entry?
          (Views.savedPath "index.html") =
        some (.file (Utf8.encode "[\x7b\"Text\":\"one\"\x7d]") 100) ∧
      (Desk.replies { views := debugViews } rewritten).filterMap pageOf =
        ["one".toList, "one".toList] ∧
      (Uncached.replies { views := debugViews } rewritten).filterMap pageOf =
        ["one".toList, "two".toList] := by
  refine ⟨rfl, rfl, ?_⟩
  decide +kernel

end PageServer.Settings
