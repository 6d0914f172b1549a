/-
# Making a page

Everything that makes the page of a visit works on its template, its title and
the views of the site. It leaves alone who makes the request, what the sessions
and the accounts hold, and which cookies are set.

* `Visit.OnlyPage`: two visits that differ in their pages only
* `Visiting.MakesPage`: steps that do no more than that
* `Visiting.makesPage_infoPage`, …: the steps of controllers that make pages
-/
import PageServer.Proofs.Action
import PageServer.Site.Basic

namespace PageServer

/-! ## Visits with other pages -/

/-- The second visit has nothing but another page, and the views have seen it. -/
def Visit.OnlyPage (v v' : Visit) : Prop :=
  ∃ views title template,
    v' = { v with title, template, stores := { v.stores with views } }

namespace Visit.OnlyPage

theorem refl (v : Visit) : v.OnlyPage v := ⟨_, _, _, rfl⟩

theorem trans {v v' v'' : Visit} (h : v.OnlyPage v') (h' : v'.OnlyPage v'') :
    v.OnlyPage v'' := by
  obtain ⟨_, _, _, rfl⟩ := h
  obtain ⟨views, title, template, rfl⟩ := h'
  exact ⟨views, title, template, rfl⟩

variable {v v' : Visit}

theorem sessions_eq (h : v.OnlyPage v') : v'.stores.sessions = v.stores.sessions := by
  obtain ⟨_, _, _, rfl⟩ := h; rfl

theorem directory_eq (h : v.OnlyPage v') : v'.stores.directory = v.stores.directory := by
  obtain ⟨_, _, _, rfl⟩ := h; rfl

theorem user_eq (h : v.OnlyPage v') : v'.user = v.user := by
  obtain ⟨_, _, _, rfl⟩ := h; rfl

theorem session_eq (h : v.OnlyPage v') : v'.session = v.session := by
  obtain ⟨_, _, _, rfl⟩ := h; rfl

theorem cookies_eq (h : v.OnlyPage v') : v'.cookies = v.cookies := by
  obtain ⟨_, _, _, rfl⟩ := h; rfl

theorem request_eq (h : v.OnlyPage v') : v'.request = v.request := by
  obtain ⟨_, _, _, rfl⟩ := h; rfl

theorem route_eq (h : v.OnlyPage v') : v'.route = v.route := by
  obtain ⟨_, _, _, rfl⟩ := h; rfl

end Visit.OnlyPage

/-! ## Steps that make pages -/

namespace Visiting

variable {α β : Type}

/-- A step that leaves behind no more than another page, also when it fails. -/
def MakesPage (step : Visiting α) : Prop := ∀ v : Visit, v.OnlyPage (Action.run step v).2

theorem makesPage_pure (a : α) : MakesPage (pure a : Visiting α) := fun v => .refl v

theorem makesPage_get : MakesPage (get : Visiting Visit) := fun v => .refl v

theorem makesPage_fail (fault : Fault) : MakesPage (fail fault : Visiting α) := fun v => .refl v

/-- Two such steps in a row are one. -/
theorem MakesPage.bind {step : Visiting α} {next : α → Visiting β} (h : MakesPage step)
    (hnext : ∀ a, MakesPage (next a)) : MakesPage (step >>= next) := by
  intro v
  rcases Action.after_bind step next v with ⟨e, -, hrun⟩ | ⟨a, -, hrun⟩
  · rw [hrun]
    exact h v
  · rw [hrun]
    exact (h v).trans (hnext a _)

theorem makesPage_onTemplate
    (step : Template → Views → Except Fault α × Template × Views) :
    MakesPage (onTemplate step) := fun _ => ⟨_, _, _, rfl⟩

theorem makesPage_setTemplate (name : Text) : MakesPage (setTemplate name) :=
  makesPage_onTemplate _

theorem makesPage_setTitle (title : Text) : MakesPage (setTitle title) :=
  fun _ => ⟨_, _, _, rfl⟩

theorem makesPage_set (name : Text) (value : Value) : MakesPage (set name value) :=
  fun _ => ⟨_, _, _, rfl⟩

theorem makesPage_setMany (pairs : List (Text × Value)) : MakesPage (setMany pairs) :=
  fun _ => ⟨_, _, _, rfl⟩

theorem makesPage_link (path : Text) : MakesPage (link path) :=
  makesPage_get.bind fun _ => makesPage_pure _

theorem makesPage_render : MakesPage render := by
  refine makesPage_get.bind fun v => ?_
  split
  · exact (makesPage_setMany _).bind fun _ =>
      (makesPage_onTemplate _).bind fun _ => makesPage_pure _
  · exact makesPage_fail _

theorem makesPage_infoPage (title message kind : Text) (link : Option (Text × Text)) :
    MakesPage (infoPage title message kind link) :=
  (makesPage_setTemplate _).bind fun _ =>
    (makesPage_setMany _).bind fun _ =>
      (makesPage_setTitle _).bind fun _ => makesPage_render

theorem makesPage_successPage (title message : Text) (link : Option (Text × Text)) :
    MakesPage (successPage title message link) :=
  makesPage_infoPage _ _ _ _

theorem makesPage_errorPage (title message : Text) (link : Option (Text × Text)) :
    MakesPage (errorPage title message link) :=
  makesPage_infoPage _ _ _ _

theorem makesPage_errorDisplay (messages : List Text) : MakesPage (errorDisplay messages) :=
  (makesPage_set _ _).bind fun _ => makesPage_render

end Visiting

/-! ## The forms of the accounts -/

namespace Auth

open Visiting

theorem makesPage_showForm (template title module : Text) :
    MakesPage (showForm template title module) :=
  (makesPage_setTemplate _).bind fun _ =>
    (makesPage_setTitle _).bind fun _ =>
      (makesPage_link _).bind fun _ => makesPage_set _ _

/-- The address that was sent is read, and set as a variable of the page. -/
theorem run_sentEmail (v : Visit) :
    ∃ v', Action.run sentEmail v = (.ok (Text.trim (v.request.inputOr "email" "")), v') ∧
      v.OnlyPage v' :=
  ⟨_, rfl, _, _, _, rfl⟩

end Auth
end PageServer
