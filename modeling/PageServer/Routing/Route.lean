/-
# Routes

A route names the controller that answers a request, a module of it, and what
the module is about. It is read off a path of segments between slashes.

* `Route.ofPath`: the route of a path
* `Route.overlay`: a route with what a path says put over it
* `Route.text`: the path of a route
-/
import PageServer.Number.Integer

namespace PageServer

/-- What a module is about. -/
inductive RouteId where
  /-- A number. -/
  | int (n : Int)
  /-- A word. -/
  | str (t : Text)
  /-- More than one segment. -/
  | list (parts : List Text)
  deriving DecidableEq, Repr

namespace RouteId

/-- The segments of a path for it. -/
def text : RouteId → Text
  | int n => Text.ofInt n
  | str t => t
  | list parts => Text.join "/" parts

/-- The number, if it is one. -/
def int? : RouteId → Option Int
  | int n => some n
  | _ => none

end RouteId

/-- Who answers a request. -/
structure Route where
  /-- The controller, if one is named. -/
  controller : Option Text := none
  /-- The module, if one is named. -/
  module : Option Text := none
  /-- What the module is about. -/
  id : Option RouteId := none
  /-- Whether the route is that of the index page. -/
  isIndex : Bool := false
  /-- Whether the controller and the module are known to be there. -/
  valid : Bool := false
  deriving DecidableEq, Repr, Inhabited

namespace Route

/-- The controller of the index page. -/
def indexController : Text := "index"

/-- The route of the index page. -/
def index : Route := { controller := some indexController, isIndex := true }

/-- The number of a segment that consists of digits; one that is too large is none. -/
def number? (segment : Text) : Option Int :=
  ((Number.readNat? segment).map Int.ofNat).filter fun n => n ≤ Number.maxInt

/-- A segment that is not empty. -/
def named? (segment : Text) : Option Text :=
  if segment.isEmpty then none else some segment

/-- What the segments from the third on are about. -/
def idOf : List Text → Option RouteId
  | [] => none
  | [segment] =>
    match number? segment with
    | some n => some (.int n)
    | none => some (.str segment)
  | parts => some (.list parts)

/-- The segments of a path; slashes at either end do not count. -/
def segments (path : Text) : List Text :=
  Text.splitOn '/' (Text.trimBy (· = '/') path)

/-- A route with some segments put over it. The first is the controller. The second is the id if
it is a number, and else the module. What the segments do not say stays. -/
def overlaySegments (route : Route) : List Text → Route
  | [] => route
  | [first] => { route with controller := named? first }
  | first :: second :: others =>
    let route := { route with controller := named? first }
    let route :=
      match number? second with
      | some n => { route with id := some (.int n) }
      | none => { route with module := named? second }
    { route with id := (idOf others).or route.id }

/-- A route with a path put over it. -/
def overlay (route : Route) (path : Text) : Route :=
  route.overlaySegments (segments path)

/-- The route of a path. -/
def ofPath (path : Text) : Route := overlay {} path

/-- The path of a route. -/
def text (route : Route) : Text :=
  route.controller.getD []
    ++ (route.module.map fun name => '/' :: name).getD []
    ++ (route.id.map fun id => '/' :: id.text).getD []

end Route
end PageServer
