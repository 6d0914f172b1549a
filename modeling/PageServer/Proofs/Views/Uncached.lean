/-
# Without saved trees

Views that save no trees are worked with as if there were none: a template is
taken from memory or from its file, its tree is made from its text, and nothing
is looked up or left behind. So the disk changes by the edits of its author
alone.

* `Uncached.load`, `Uncached.compile`: templates from memory and from files
* `Uncached.handle`, `Uncached.replies`, `Uncached.after`: work and edits in which there are no
  saved trees
* `Uncached.edited`: the disk after the edits alone
* `Desk.handle_uncached`, `Desk.handle_unsaved`: one event with views that save no trees
* `Desk.IsUncached`, `Desk.isUncached_of_unsaved`: any run of such events
-/
import PageServer.Proofs.Views.Confined

namespace PageServer

/-! ## Templates from memory and from files -/

namespace Uncached

/-- Takes a template from memory, or else from its file. -/
def load (t : Template) (name : Text) (v : Views) : Except Fault Unit × Template × Views :=
  match Views.checkName name with
  | .error fault => (.error fault, t, v)
  | .ok () =>
    match v.source name with
    | (some source, v) =>
      (.ok (), { t.emptied name with source, loaded := true, fromViews := true }, v)
    | (none, v) => (.error (.templateNotFound name), t.emptied name, v)

/-- Makes the tree of a template that has none yet. -/
def parse (t : Template) (v : Views) : Except Fault Template × Views :=
  match t.tree with
  | some _ => (.ok t, v)
  | none =>
    if t.loaded then
      let (result, v) := Action.run (Node.parse Views.load t.source t.name) v
      (result.map fun nodes => { t with tree := some nodes }, v)
    else (.error (.templateNotFound t.name), v)

/-- Makes the text of a template. -/
def compile (t : Template) (v : Views) : Except Fault Text × Template × Views :=
  match parse t v with
  | (.error fault, v) => (.error fault, t, v)
  | (.ok t, v) =>
    match t.render v.constants with
    | .ok output => (.ok output, { t with output := some output }, v)
    | .error fault => (.error fault, t, v)

/-- Taking a template changes nothing but the memory. -/
theorem rests_load (t : Template) (name : Text) (v : Views) : v.Rests (load t name v).2.2 := by
  have hsource := Views.rests_source v name
  unfold load
  cases Views.checkName name with
  | error fault => exact .refl v
  | ok _ =>
      dsimp only
      rcases hfound : v.source name with ⟨found, after⟩
      rw [hfound] at hsource
      cases found with
      | some source => exact hsource
      | none => exact hsource

/-- So does making its tree. -/
theorem rests_parse (t : Template) (v : Views) : v.Rests (parse t v).2 := by
  unfold parse
  split
  · exact .refl v
  · split
    · exact v.rests_parse t.source t.name
    · exact .refl v

/-- So does making its text. -/
theorem rests_compile (t : Template) (v : Views) : v.Rests (compile t v).2.2 := by
  have hparse := rests_parse t v
  unfold compile
  rcases hparsed : parse t v with ⟨parsed, after⟩
  rw [hparsed] at hparse
  cases parsed with
  | error fault => exact hparse
  | ok made =>
      dsimp only
      split
      · exact hparse
      · exact hparse

end Uncached

namespace Views

variable {v : Views}

/-- Views that save no trees find none, and change nothing. -/
theorem savedTree_unsaved (h : v.maxAge ≤ 0) (name : Text) : v.savedTree name = (none, v) := by
  unfold savedTree saves
  rw [decide_eq_false (Int.not_lt.mpr h)]
  rfl

end Views

namespace Template

variable {v : Views}

/-- **From views that save no trees a template is taken as if there were none.** -/
theorem load_uncached (h : v.maxAge ≤ 0) (t : Template) (name : Text) :
    t.load name v = Uncached.load t name v := by
  have hrecalled := Views.rests_recalled v name
  unfold load Uncached.load Views.source
  cases Views.checkName name with
  | error fault => rfl
  | ok _ =>
      dsimp only
      rcases hmemory : v.recalled name with ⟨found, after⟩
      rw [hmemory] at hrecalled
      cases found with
      | some source => rfl
      | none =>
          have hsaved := Views.savedTree_unsaved (hrecalled.maxAge.trans_le h) name
          dsimp only at hsaved ⊢
          generalize after.savedTree name = sought at hsaved ⊢
          subst hsaved
          rfl

/-- No tree of a template is saved then. -/
theorem saveTree_unsaved (h : v.maxAge ≤ 0) (t : Template) (nodes : List Node) :
    t.saveTree nodes v = v := by
  unfold saveTree Views.saves
  rw [decide_eq_false (Int.not_lt.mpr h)]
  rfl

/-- Its tree is made and not saved. -/
theorem parse_uncached (h : v.maxAge ≤ 0) (t : Template) :
    Action.run t.parse v = Uncached.parse t v := by
  unfold Uncached.parse
  cases htree : t.tree with
  | some nodes => exact run_parse_of_tree htree v
  | none =>
      cases hloaded : t.loaded with
      | false => exact run_parse_of_unloaded htree hloaded v
      | true =>
          have hrests := v.rests_parse t.source t.name
          rw [run_parse_of_source htree hloaded, if_pos rfl]
          rcases hrun : Action.run (Node.parse Views.load t.source t.name) v with ⟨result, after⟩
          rw [hrun] at hrests
          cases result with
          | error fault => rfl
          | ok nodes =>
              dsimp only
              rw [saveTree_unsaved (hrests.maxAge.trans_le h), hloaded]
              rfl

/-- **With views that save no trees the text of a template is made as if there were none.** -/
theorem compile_uncached (h : v.maxAge ≤ 0) (t : Template) :
    t.compile v = Uncached.compile t v := by
  have hparse := parse_uncached h t
  unfold compile Uncached.compile
  generalize Action.run t.parse v = made at hparse ⊢
  subst hparse
  rfl

end Template

/-! ## Work and edits -/

namespace Uncached

open Desk (Step Answer Event Reply)

/-- One step of work in which there are no saved trees. -/
def step (d : Desk) : Step → Answer × Desk
  | .openAt slot name =>
    match load {} name d.views with
    | (.ok (), t, views) => (.loaded (.ok ()), { d with views }.put slot t)
    | (.error fault, _, views) => (.loaded (.error fault), { d with views })
  | .load slot name =>
    let (result, t, views) := load (d.slots slot) name d.views
    (.loaded result, { d with views }.put slot t)
  | .compile slot =>
    let (result, t, views) := compile (d.slots slot) d.views
    (.page result, { d with views }.put slot t)
  | s => d.step s

/-- One event. -/
def handle (d : Desk) : Event → Reply × Desk
  | .work s => (.answer (step d s).1, (step d s).2)
  | .lookUp _ => (.tree none, d)
  | e => d.handle e

/-- The replies to some events. -/
def replies : Desk → List Event → List Reply
  | _, [] => []
  | d, e :: rest => (handle d e).1 :: replies (handle d e).2 rest

/-- The desk after some events. -/
def after : Desk → List Event → Desk
  | d, [] => d
  | d, e :: rest => after (handle d e).2 rest

/-- The disk after the edits among some events, while nothing else happens to it. -/
def edited (now : Int) (disk : Disk) : List Event → Disk
  | [] => disk
  | .edit e :: rest => edited now (e.apply now disk) rest
  | .work (.wait later) :: rest => edited later disk rest
  | _ :: rest => edited now disk rest

end Uncached

namespace Desk

/-- Whether an event leaves the views in use. -/
def Event.Stays : Event → Prop
  | .work (.renew ..) => False
  | _ => True

instance Event.decidableStays : DecidablePred Event.Stays
  | .work (.renew ..) => isFalse id
  | .work (.openAt ..) | .work (.load ..) | .work (.set ..) | .work (.addRow ..)
  | .work (.setOverwrite ..) | .work (.compile _) | .work (.wait _) => isTrue trivial
  | .source _ | .lookUp _ | .edit _ => isTrue trivial

variable {d : Desk}

/-- **A step with views that save no trees** is one in which there are none. -/
theorem step_uncached (h : d.views.maxAge ≤ 0) (s : Step) : d.step s = Uncached.step d s := by
  cases s with
  | openAt slot name =>
      have hload := Template.load_uncached h {} name
      simp only [step, Uncached.step]
      generalize Template.load {} name d.views = loaded at hload ⊢
      subst hload
      rfl
  | load slot name =>
      simp only [step, Uncached.step]
      rw [Template.load_uncached h]
  | compile slot =>
      simp only [step, Uncached.step]
      rw [Template.compile_uncached h]
  | set slot name value => rfl
  | addRow slot path row => rfl
  | setOverwrite slot overwrite => rfl
  | renew maxAge capacity constants => rfl
  | wait now => rfl

/-- **So is an event.** -/
theorem handle_uncached (h : d.views.maxAge ≤ 0) (e : Event) :
    d.handle e = Uncached.handle d e := by
  cases e with
  | work s =>
      simp only [handle, Uncached.handle]
      rw [step_uncached h]
  | source name => rfl
  | lookUp name =>
      simp only [handle, Uncached.handle]
      rw [Views.savedTree_unsaved h]
  | edit e => rfl

/-- Such an event changes the time and the disk of the views as waiting and editing do. -/
theorem handle_unsaved (h : d.views.maxAge ≤ 0) {e : Event} (he : e.Stays) (rest : List Event) :
    (d.handle e).2.views.maxAge = d.views.maxAge ∧
      Uncached.edited d.views.now d.views.disk (e :: rest) =
        Uncached.edited (d.handle e).2.views.now (d.handle e).2.views.disk rest := by
  -- work rests the views
  have hrests : ∀ views, d.views.Rests views → views.maxAge = d.views.maxAge ∧
      Uncached.edited d.views.now d.views.disk rest = Uncached.edited views.now views.disk rest := by
    intro views hviews
    rw [hviews.now, hviews.disk]
    exact ⟨hviews.maxAge, rfl⟩
  cases e with
  | work s =>
      cases s with
      | openAt slot name =>
          apply hrests
          show d.views.Rests (d.step (.openAt slot name)).2.views
          rw [views_openAt, Template.load_uncached h]
          exact Uncached.rests_load _ name d.views
      | load slot name =>
          apply hrests
          show d.views.Rests ((d.slots slot).load name d.views).2.2
          rw [Template.load_uncached h]
          exact Uncached.rests_load _ name d.views
      | compile slot =>
          apply hrests
          show d.views.Rests ((d.slots slot).compile d.views).2.2
          rw [Template.compile_uncached h]
          exact Uncached.rests_compile _ d.views
      | set slot name value => exact ⟨rfl, rfl⟩
      | addRow slot path row => exact ⟨rfl, rfl⟩
      | setOverwrite slot overwrite => exact ⟨rfl, rfl⟩
      | renew maxAge capacity constants => exact he.elim
      | wait now => exact ⟨rfl, rfl⟩
  | source name => exact hrests _ (d.views.rests_load name)
  | lookUp name =>
      apply hrests
      rw [handle_uncached h]
      exact .refl d.views
  | edit e => exact ⟨rfl, rfl⟩

/-- A desk at which saved trees play no part: whatever is done with its views, and however the files
are edited, the replies and the desk at the end are those of work without saved trees, and nothing
but the edits changes the disk. -/
def IsUncached (d : Desk) : Prop :=
  ∀ events : List Event, (∀ e ∈ events, e.Stays) →
    d.replies events = Uncached.replies d events ∧ d.after events = Uncached.after d events ∧
      (d.after events).views.disk = Uncached.edited d.views.now d.views.disk events

/-- **With views that save no trees, saved trees play no part**, by induction on the events. -/
theorem isUncached_of_unsaved (h : d.views.maxAge ≤ 0) : d.IsUncached := by
  intro events hevents
  induction events generalizing d with
  | nil => exact ⟨rfl, rfl, rfl⟩
  | cons e rest ih =>
      obtain ⟨he, hrest⟩ := List.forall_mem_cons.mp hevents
      obtain ⟨hmaxAge, hedited⟩ := handle_unsaved h he rest
      obtain ⟨hreplies, hafter, hdisk⟩ := ih (hmaxAge.trans_le h) hrest
      simp only [replies, Uncached.replies, after, Uncached.after]
      rw [hedited, ← handle_uncached h, hreplies, hafter]
      rw [hafter] at hdisk
      exact ⟨rfl, rfl, hdisk⟩

end Desk
end PageServer
