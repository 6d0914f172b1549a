/-
# The registry of controllers

Which controllers there are and which modules each of them has. Names are kept
apart from what a path can mean otherwise: they are not empty, hold no
separator, and are no numbers.

* `Registry.register`: adds a controller, or says why not
* `Registry.accepts`: whether a route leads to a controller and one of its modules
-/
import PageServer.Fault
import PageServer.Routing.Route
import PageServer.Text.Table

namespace PageServer

/-- A controller with the modules that it may be asked for. -/
structure Registered (α : Type) where
  /-- The modules, in order. -/
  modules : List Text
  /-- What answers the requests. -/
  controller : α
  deriving Repr

/-- The controllers by name. -/
abbrev Registry (α : Type) := Table (Registered α)

namespace Registry

variable {α : Type}

/-- Refuses a name that could not be reached by a path. -/
def checkName (kind name : Text) : Except Fault Unit :=
  if name.isEmpty then .error (.invalidRegistration ("empty " ++ kind ++ " name"))
  else if '/' ∈ name ∨ '?' ∈ name then
    .error (.invalidRegistration
      (kind ++ " name \x27" ++ name ++ "\x27 contains a path separator"))
  else if name.all Number.isDigit then
    .error (.invalidRegistration
      (kind ++ " name \x27" ++ name ++ "\x27 is numeric and would be routed as an id"))
  else .ok ()

/-- The modules of a controller in order, after those that are known; each may be named once. -/
def checkModules (controller : Text) : List Text → List Text → Except Fault (List Text)
  | known, [] => .ok known
  | known, module :: rest => do
    checkName "module" module
    if module ∈ known then
      .error (.invalidRegistration
        ("module \x27" ++ controller ++ '/' :: module ++ "\x27 registered twice"))
    else checkModules controller (Text.insertSorted module known) rest

/-- The registry with one more controller. -/
def register (registry : Registry α) (name : Text) (modules : List Text) (controller : α) :
    Except Fault (Registry α) := do
  checkName "controller" name
  if registry.holds name then
    .error (.invalidRegistration ("controller \x27" ++ name ++ "\x27 registered twice"))
  else
    let modules ← checkModules name [] modules
    return registry.insert name { modules, controller }

/-- Whether a route leads to a controller and, if it names a module, to one of its modules. -/
def accepts (registry : Registry α) (route : Route) : Bool :=
  match route.controller.bind registry.get? with
  | some registered =>
    match route.module with
    | some module => decide (module ∈ registered.modules)
    | none => true
  | none => false

/-- A route that says whether it leads somewhere. -/
def validate (registry : Registry α) (route : Route) : Route :=
  { route with valid := registry.accepts route }

/-- The controller that a valid route leads to. -/
def controllerOf (registry : Registry α) (route : Route) : Except Fault α :=
  match registry.get? (route.controller.getD []) with
  | some registered => if route.valid then .ok registered.controller else .error .invalidPath
  | none => .error .invalidPath

end Registry
end PageServer
