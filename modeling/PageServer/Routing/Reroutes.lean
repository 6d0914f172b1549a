/-
# Re-routing

A table says for a controller, or for a controller with a module, which path is
put over the route instead. This goes on until nothing applies; it never ends
if the same controller and module come up again, and then it is a cycle.

* `Reroutes.step?`: one replacement
* `Reroutes.apply`: all replacements, or the cycle
* `Reroutes.check`: whether some route runs into a cycle
-/
import PageServer.Fault
import PageServer.Routing.Route
import PageServer.Text.Table

namespace PageServer

/-- Paths by the controller, or the controller and the module, that they replace. -/
abbrev Reroutes := Table Text

namespace Reroutes

/-- The entry for a controller with a module, and what replaces it: that of both together comes
before that of the controller alone. -/
def find? (table : Reroutes) (controller : Text) (module : Option Text) :
    Option (Text × Text) :=
  let both := module.bind fun name =>
    let key := controller ++ '/' :: name
    (table.get? key).map fun target => (key, target)
  both.or ((table.get? controller).map fun target => (controller, target))

/-- The entry that applies to a route, and the route after it. -/
def step? (table : Reroutes) (route : Route) : Option (Text × Route) := do
  let controller ← route.controller
  let (key, target) ← table.find? controller route.module
  return (key, route.overlay target)

/-- What decides about the next replacement of a route. -/
abbrev Place := Option Text × Option Text

/-- The place of a route. -/
def place (route : Route) : Place := (route.controller, route.module)

/-- Replaces until nothing applies or a place comes up again, at most as often as the number
says; `chain` holds the entries used before, the last one first. -/
def follow (table : Reroutes) : Nat → List Place → List Text → Route → Except Fault Route
  | 0, _, chain, _ => .error (.rerouteCycle chain.reverse)
  | more + 1, visited, chain, route =>
    match table.step? route with
    | none => .ok route
    | some (key, next) =>
      if place route ∈ visited then .error (.rerouteCycle (key :: chain).reverse)
      else follow table more (place route :: visited) (key :: chain) next

/-- More replacements than there are places that can come up: the controllers and the modules
are those of the route and of the paths in the table. -/
def bound (table : Reroutes) : Nat := (table.length + 2) * (table.length + 2)

/-- The route that a route is replaced by in the end. -/
def apply (table : Reroutes) (route : Route) : Except Fault Route :=
  table.follow table.bound [] [] route

/-- The routes from which every cycle can be reached: the controllers of the entries, each
without a module and with the modules of the entries, in order. -/
def starts (table : Reroutes) : List Route :=
  let keys := table.map fun entry => Route.ofPath entry.1
  let sorted (names : List Text) : List Text :=
    names.foldl (fun sorted name => Text.insertSorted name sorted) []
  let modules := none :: (sorted (keys.filterMap Route.module)).map some
  (sorted (keys.filterMap Route.controller)).flatMap fun controller =>
    modules.map fun module => { controller := some controller, module }

/-- Refuses a table with a cycle. -/
def check (table : Reroutes) : Except Fault Unit :=
  table.starts.forM fun route => do
    let _ ← table.apply route

end Reroutes
end PageServer
