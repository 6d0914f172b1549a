/-
# How pages end

A step that makes the page of a visit gives this page, with the status for a
request that has been answered, unless the views are at fault: a template is
missing or can not be used.

* `Halt.IsOfViews`: the views are at fault
* `Visiting.ShowsPage`: a step that gives a page unless the views are at fault
* `Visiting.showsPage_render`, `Visiting.showsPage_infoPage`, …: the steps that do so
-/
import PageServer.Proofs.Action
import PageServer.Proofs.Views.Faults
import PageServer.Site.Auth

namespace PageServer

open PageServer.Action (FailsBy)

/-- The views are at fault. -/
def Halt.IsOfViews : Halt → Prop
  | .fault problem => problem.IsOfViews
  | .abort _ => False

namespace Visiting

variable {α β : Type}

/-! ## Steps that fail only by the views -/

theorem failsBy_get : FailsBy Halt.IsOfViews (get : Visiting Visit) := by
  intro v halt h
  contradiction

theorem failsBy_modify (change : Visit → Visit) :
    FailsBy Halt.IsOfViews (modify change : Visiting Unit) := by
  intro v halt h
  contradiction

/-- A step on the template fails as this step does. -/
theorem failsBy_onTemplate {step : Template → Views → Except Fault α × Template × Views}
    (hstep : ∀ template views fault, (step template views).1 = .error fault → fault.IsOfViews) :
    FailsBy Halt.IsOfViews (onTemplate step) := by
  intro v halt h
  simp only [onTemplate, Action.run_mk] at h
  cases hresult : (step v.template v.stores.views).1 with
  | ok a =>
      rw [hresult] at h
      contradiction
  | error fault =>
      rw [hresult] at h
      rw [← Except.error.inj h]
      exact hstep _ _ fault hresult

theorem failsBy_setTemplate (name : Text) : FailsBy Halt.IsOfViews (setTemplate name) :=
  failsBy_onTemplate fun _ _ _ => Template.isOfViews_of_load

theorem failsBy_link (path : Text) : FailsBy Halt.IsOfViews (link path) :=
  failsBy_get.bind fun _ => Action.failsBy_pure _

/-! ## Steps that give a page -/

/-- A result is a page with the status for a request that has been answered, or the views are at
fault. -/
def IsPage (result : Except Halt Outcome) : Prop :=
  (∃ html, result = .ok (.page Status.ok.code html)) ∨
    ∃ fault, result = .error (.fault fault) ∧ fault.IsOfViews

/-- A step that gives a page unless the views are at fault. -/
def ShowsPage (step : Visiting Outcome) : Prop := ∀ v, IsPage (Action.run step v).1

theorem showsPage_pure (html : Text) :
    ShowsPage (pure (.page Status.ok.code html) : Visiting Outcome) := by
  intro v
  exact Or.inl ⟨html, rfl⟩

theorem showsPage_fail {fault : Fault} (h : fault.IsOfViews) :
    ShowsPage (fail fault : Visiting Outcome) := by
  intro v
  exact Or.inr ⟨fault, rfl, h⟩

/-- Steps that fail only by the views may come before. -/
theorem ShowsPage.after {step : Visiting α} {next : α → Visiting Outcome}
    (hstep : FailsBy Halt.IsOfViews step) (hnext : ∀ a, ShowsPage (next a)) :
    ShowsPage (step >>= next) := by
  intro v
  rcases Action.after_bind step next v with ⟨halt, hhalt, hrun⟩ | ⟨a, -, hrun⟩
  · rw [hrun]
    have hviews := hstep v halt hhalt
    cases halt with
    | fault fault => exact Or.inr ⟨fault, rfl, hviews⟩
    | abort abort => exact absurd hviews id
  · rw [hrun]
    exact hnext a _

theorem showsPage_render : ShowsPage render := by
  apply ShowsPage.after failsBy_get
  intro v
  split
  · apply ShowsPage.after (failsBy_modify _)
    intro _
    apply ShowsPage.after
      (failsBy_onTemplate fun template views fault => Template.isOfViews_of_compile)
    intro html
    exact showsPage_pure html
  · exact showsPage_fail (Or.inl rfl)

theorem showsPage_infoPage (title message kind : Text) (link : Option (Text × Text)) :
    ShowsPage (infoPage title message kind link) := by
  apply ShowsPage.after (failsBy_setTemplate _)
  intro _
  apply ShowsPage.after (failsBy_modify _)
  intro _
  apply ShowsPage.after (failsBy_modify _)
  intro _
  exact showsPage_render

theorem showsPage_successPage (title message : Text) (link : Option (Text × Text)) :
    ShowsPage (successPage title message link) :=
  showsPage_infoPage title message "success" link

theorem showsPage_errorPage (title message : Text) (link : Option (Text × Text)) :
    ShowsPage (errorPage title message link) :=
  showsPage_infoPage title message "error" link

theorem showsPage_errorDisplay (messages : List Text) : ShowsPage (errorDisplay messages) := by
  apply ShowsPage.after (failsBy_modify _)
  intro _
  exact showsPage_render

end Visiting

/-- A form can be shown unless the views are at fault. -/
theorem Auth.failsBy_showForm (template title module : Text) :
    FailsBy Halt.IsOfViews (showForm template title module) :=
  (Visiting.failsBy_setTemplate _).bind fun _ =>
    (Visiting.failsBy_modify _).bind fun _ =>
      (Visiting.failsBy_link _).bind fun _ => Visiting.failsBy_modify _

end PageServer
