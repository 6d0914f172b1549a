/-
# The router

The addresses of a site lie under a root, whose own address is that of the
index page. All others name a route by what follows the root.

* `Router.make`: a router, if its re-routing has no cycle
* `Router.route`: the route of an address
* `Router.link`: the address of a path under the root
-/
import PageServer.Routing.Reroutes
import PageServer.Http.Query

namespace PageServer

/-- What is needed to find the route of an address. -/
structure Router where
  /-- The address of the index page. -/
  root : Text
  /-- The replacements of routes. -/
  reroutes : Reroutes
  deriving DecidableEq, Repr, Inhabited

namespace Router

/-- A router; an empty root stands for a slash. -/
def ofRoot (root : Text) (reroutes : Reroutes) : Router :=
  { root := if root.isEmpty then ['/'] else root, reroutes }

/-- A router whose re-routing has no cycle. -/
def make (root : Text) (reroutes : Reroutes) : Except Fault Router := do
  reroutes.check
  return ofRoot root reroutes

/-- A text without the slashes at its end. -/
def dropSlashes (t : Text) : Text := Text.dropEndWhile (· = '/') t

/-- Whether a path is that of the root, whatever slashes stand at their ends. -/
def isIndex (router : Router) (path : Text) : Bool :=
  dropSlashes path = dropSlashes router.root

/-- The path under the root; a path that does not start with the root stays. -/
def relative (router : Router) (path : Text) : Text :=
  (Text.after? router.root path).getD path

/-- The route of an address after re-routing. What stands after a question mark does not
count. -/
def route (router : Router) (address : Text) : Except Fault Route :=
  let path := (Query.splitAddress address).1
  if router.isIndex path then .ok .index
  else router.reroutes.apply (.ofPath (router.relative path))

/-- The address of a path under the root. -/
def link (router : Router) (path : Text) : Text :=
  dropSlashes router.root ++ '/' :: path.dropWhile (· = '/')

end Router
end PageServer
