/-
# Working with templates

Someone who works with the templates of a site: templates are opened into
slots, get variables, and are made into pages, while the views may be replaced
by new ones and time passes. Over files that do not change, every step keeps
the views in agreement with the files, and every template in a slot stands.

* `Desk`, `Desk.Step`, `Desk.step`: the views and the slots, and one step
* `Desk.Sound`: the invariant
* `Desk.step_sound`, `Desk.run_sound`: one step keeps it, and so does a run
-/
import PageServer.Proofs.Views.Template

namespace PageServer

/-- The views of a site with the templates that have been taken from them, by slot. -/
structure Desk where
  /-- The views. -/
  views : Views
  /-- The templates. -/
  slots : Nat → Template := fun _ => {}

namespace Desk

/-! ## Steps -/

/-- One step of the work. -/
inductive Step where
  /-- Opens a template into a slot, which keeps what it holds if that fails. -/
  | openAt (slot : Nat) (name : Text)
  /-- Loads another template into the one in a slot, which keeps its variables. -/
  | load (slot : Nat) (name : Text)
  /-- Sets a variable. -/
  | set (slot : Nat) (name : Text) (value : Value)
  /-- Adds a row to a loop. -/
  | addRow (slot : Nat) (path : Text) (row : Fields)
  /-- Says whether variables that exist may be set again. -/
  | setOverwrite (slot : Nat) (overwrite : Bool)
  /-- Makes the page. -/
  | compile (slot : Nat)
  /-- Replaces the views by new ones of the same folder. -/
  | renew (maxAge : Int) (capacity : Nat) (constants : Constants)
  /-- Lets time pass. -/
  | wait (now : Int)

/-- The template that a step takes from the views. -/
def Step.opens : Step → Option Text
  | openAt _ name => some name
  | load _ name => some name
  | _ => none

/-- What a step answers. -/
inductive Answer where
  /-- Nothing. -/
  | nothing
  /-- Whether there was a loop to add a row to. -/
  | row (added : Bool)
  /-- Whether a template was found. -/
  | loaded (result : Except Fault Unit)
  /-- A page. -/
  | page (result : Except Fault Text)
  deriving DecidableEq

/-- The desk with a template put into a slot. -/
def put (d : Desk) (slot : Nat) (t : Template) : Desk :=
  { d with slots := Function.update d.slots slot t }

theorem put_slots (d : Desk) (slot : Nat) (t : Template) (other : Nat) :
    (d.put slot t).slots other = if other = slot then t else d.slots other :=
  Function.update_apply d.slots slot t other

/-- One step. -/
def step (d : Desk) : Step → Answer × Desk
  | .openAt slot name =>
    match Template.load {} name d.views with
    | (.ok (), t, views) => (.loaded (.ok ()), { d with views }.put slot t)
    | (.error fault, _, views) => (.loaded (.error fault), { d with views })
  | .load slot name =>
    let (result, t, views) := (d.slots slot).load name d.views
    (.loaded result, { d with views }.put slot t)
  | .set slot name value => (.nothing, d.put slot ((d.slots slot).set name value))
  | .addRow slot path row =>
    let (added, t) := (d.slots slot).addRow path row
    (.row added, d.put slot t)
  | .setOverwrite slot overwrite =>
    (.nothing, d.put slot ((d.slots slot).setOverwrite overwrite))
  | .compile slot =>
    let (result, t, views) := (d.slots slot).compile d.views
    (.page result, { d with views }.put slot t)
  | .renew maxAge capacity constants =>
    match Views.make d.views.disk d.views.now maxAge capacity constants with
    | .ok views => (.nothing, { d with views })
    | .error _ => (.nothing, d)
  | .wait now => (.nothing, { d with views := { d.views with now } })

/-- The answers of some steps in order. -/
def answers : Desk → List Step → List Answer
  | _, [] => []
  | d, s :: rest => (d.step s).1 :: answers (d.step s).2 rest

/-- The desk after some steps. -/
def run : Desk → List Step → Desk
  | d, [] => d
  | d, s :: rest => run (d.step s).2 rest

/-- Steps that take only some templates from the views. -/
def Opens (opened : Set Text) (steps : List Step) : Prop :=
  ∀ s ∈ steps, ∀ name, s.opens = some name → name ∈ opened

/-! ## The invariant -/

/-- Views that agree with files, and templates that stand. -/
structure Sound (files : Disk) (opened : Set Text) (d : Desk) : Prop where
  views : d.views.Faithful files opened
  slots : ∀ slot, (d.slots slot).Stands files opened

variable {files : Disk} {names opened : Set Text} {d : Desk}

/-- A template that holds nothing stands. -/
theorem stands_empty : Template.Stands files opened {} := by
  constructor
  · intro hloaded
    contradiction
  · intro hloaded
    contradiction
  · intro nodes htree
    contradiction

/-- A template stands whatever its variables and its page are. -/
theorem stands_of_eq {t t' : Template} (ht : t.Stands files opened) (hname : t'.name = t.name)
    (hsource : t'.source = t.source) (htree : t'.tree = t.tree) (hloaded : t'.loaded = t.loaded) :
    t'.Stands files opened := by
  constructor
  · rw [hname, hloaded]
    exact ht.name_mem
  · rw [hname, hsource, htree, hloaded]
    exact ht.source
  · rw [hname, htree, hloaded]
    exact ht.tree

namespace Sound

/-- Other views that agree with the files. -/
theorem of_views (hd : d.Sound files opened) {views : Views} (hv : views.Faithful files opened) :
    Sound files opened { d with views } :=
  ⟨hv, hd.slots⟩

/-- Another template that stands in a slot. -/
theorem put (hd : d.Sound files opened) {t : Template} (ht : t.Stands files opened) (slot : Nat) :
    (d.put slot t).Sound files opened := by
  constructor
  · exact hd.views
  · intro other
    rw [put_slots]
    by_cases hother : other = slot
    · rw [if_pos hother]
      exact ht
    · rw [if_neg hother]
      exact hd.slots other

end Sound

/-- Empty slots over new views of files without saved trees. -/
theorem sound_of_make (hnames : Views.Undisturbed files names)
    (hempty : ∀ file, files.entry? [Views.savedFolder, file] = none) {now maxAge : Int}
    {capacity : Nat} {constants : Constants} {views : Views}
    (hviews : Views.make files now maxAge capacity constants = .ok views) :
    Sound files opened { views } :=
  ⟨Views.Faithful.of_make hnames hempty hviews, fun _ => stands_empty⟩

/-- **A step keeps the views in agreement with the files and the templates standing.** -/
theorem step_sound (hnames : Views.Undisturbed files names) (hsub : opened ⊆ names)
    (hd : d.Sound files opened) {s : Step} (hs : ∀ name, s.opens = some name → name ∈ opened) :
    (d.step s).2.Sound files opened := by
  cases s with
  | openAt slot name =>
      have hname := hs name rfl
      obtain ⟨hloads, hviews, -⟩ :=
        Template.load_loads (t := {}) hnames hd.views (hsub hname)
      have hstands := hloads.stands stands_empty hname
      simp only [step]
      rcases hload : Template.load {} name d.views with ⟨result, t, views⟩
      rw [hload] at hviews hstands
      cases result with
      | error fault => exact hd.of_views hviews
      | ok _ => exact (hd.of_views hviews).put hstands slot
  | load slot name =>
      have hname := hs name rfl
      obtain ⟨hloads, hviews, -⟩ :=
        Template.load_loads (t := d.slots slot) hnames hd.views (hsub hname)
      exact (hd.of_views hviews).put (hloads.stands (hd.slots slot) hname) slot
  | set slot name value =>
      simp only [step]
      apply hd.put
      exact stands_of_eq (hd.slots slot) rfl rfl rfl rfl
  | addRow slot path row =>
      simp only [step]
      apply hd.put
      unfold Template.addRow
      split
      · exact stands_of_eq (hd.slots slot) rfl rfl rfl rfl
      · exact stands_of_eq (hd.slots slot) rfl rfl rfl rfl
  | setOverwrite slot overwrite =>
      simp only [step]
      apply hd.put
      exact stands_of_eq (hd.slots slot) rfl rfl rfl rfl
  | compile slot =>
      obtain ⟨-, hstands, -, hviews, -⟩ :=
        Template.compile_parses hnames hsub hd.views (hd.slots slot)
      exact (hd.of_views hviews).put hstands slot
  | renew maxAge capacity constants =>
      simp only [step]
      split
      · rename_i views hmake
        exact hd.of_views (hd.views.make hmake).1
      · exact hd
  | wait now => exact hd.of_views ⟨hd.views.outside, hd.views.folder, hd.views.saved, hd.views.kept⟩

/-- **So does a run.** -/
theorem run_sound (hnames : Views.Undisturbed files names) (hsub : opened ⊆ names)
    {steps : List Step} (hd : d.Sound files opened) (hsteps : Opens opened steps) :
    (d.run steps).Sound files opened := by
  induction steps generalizing d with
  | nil => exact hd
  | cons s rest ih =>
      have hstep := step_sound hnames hsub hd (hsteps s List.mem_cons_self)
      exact ih hstep fun other hother => hsteps other (List.mem_cons_of_mem _ hother)

end Desk
end PageServer
