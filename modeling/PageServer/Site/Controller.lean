/-
# Controllers

A controller answers requests: it prepares the page, may end the request
before a module is looked at, and has handlers for some of its modules. If none
of them ends the request, the page is made.

* `Controller.serve`: answers a request
* `Controller.index`: the controller of the index page
-/
import PageServer.Site.Visit

namespace PageServer

/-- A step that may end the request. -/
abbrev Handler := Visiting (Option Outcome)

/-- What answers requests. -/
structure Controller where
  /-- What is done first. -/
  prepare : Visiting Unit := pure ()
  /-- What is done before a module is looked at. -/
  before : Handler := pure none
  /-- What is done for a module. -/
  handlers : List (Text × Handler) := []

namespace Controller

/-- The handler of the module that a route names. -/
def handler (controller : Controller) (route : Route) : Handler :=
  ((route.module.bind fun name => controller.handlers.lookup name)).getD (pure none)

/-- Answers a request. -/
def serve (controller : Controller) : Visiting Outcome := do
  controller.prepare
  match ← controller.before with
  | some outcome => return outcome
  | none =>
    match ← controller.handler (← get).route with
    | some outcome => return outcome
    | none => Visiting.render

/-! ## The index page -/

/-- The template of the index page. -/
def indexTemplate : Text := "index.html"

/-- The controller of the index page. -/
def index : Controller where
  prepare := do
    Visiting.setTemplate indexTemplate
    Visiting.set "WELCOME_MESSAGE" (.str "Welcome to the index page.")

end Controller
end PageServer
