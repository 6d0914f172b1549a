/-
# Sites

A site is its settings, its controllers, and what lasts between requests. It
answers every request that can be read.

* `Site.builtin`: the controllers that every site has
* `Site.make`: a site of settings and controllers
* `Site.handle`: the response to a request
-/
import PageServer.Routing.Registry
import PageServer.Site.Auth

namespace PageServer

/-- What answers requests. -/
structure Site where
  /-- The settings. -/
  settings : Settings
  /-- Where the addresses lie. -/
  router : Router
  /-- The controllers. -/
  registry : Registry Controller
  /-- How contents are compressed. -/
  compress : Compressor
  /-- What lasts from one request to the next. -/
  stores : Stores

namespace Site

/-! ## Making a site -/

/-- The controllers that every site has. -/
def builtin : Except Fault (Registry Controller) := do
  let registry ← Registry.register [] Route.indexController [] Controller.index
  registry.register "auth" (Auth.handlers.map Prod.fst) Auth.controller

/-- The views of a site with some settings. -/
def viewsOf (settings : Settings) (disk : Disk) (now : Int) : Except Abort Views :=
  Views.make disk now settings.maxAge settings.capacity settings.constants

/-- A site with some settings, controllers, and stores; its re-routing may have no cycle. -/
def make (settings : Settings) (registry : Registry Controller) (compress : Compressor)
    (stores : Stores) : Except Fault Site := do
  let router ← Router.make settings.root settings.reroutes
  return { settings, router, registry, compress, stores }

/-! ## Pages of the site itself -/

/-- The template of the page for what is not there. -/
def notFoundTemplate : Text := "error/404.html"

/-- The template of the page for a fault. -/
def faultTemplate : Text := "error/errorpage.html"

/-- The page of a template of the views with some variables. -/
def compileWith (template : Template) (pairs : List (Text × Value)) : Action Views Text :=
  Action.mk fun views =>
    let (result, _, views) := (template.setMany pairs).compile views
    (result, views)

/-- The page for what is not there, from its template or else the fixed one. -/
def notFoundPage : Action Views Text :=
  Action.mk fun views =>
    match Action.run (Template.open? notFoundTemplate) views with
    | (.ok template, views) =>
      Action.run (compileWith template [("PAGE_TITLE", .str "Not Found")]) views
    | (.error (.templateNotFound _), views) => (.ok (Html.statusPage .notFound), views)
    | (.error fault, views) => (.error fault, views)

/-- The page for a fault from its template. -/
def faultPageFrom (settings : Settings) (message : Text) : Action Views Text := do
  let template ← Template.open? faultTemplate
  compileWith template [("PAGE_TITLE", .str "Application Error"),
    ("DEBUG_MODE", .bool settings.debug), ("ERROR_MESSAGE", .str message)]

/-- The page for a fault: from its template, unless templates are at fault or that one can not be
used, and else the fixed one. -/
def faultPage (settings : Settings) (fault : Fault) (views : Views) : Text × Views :=
  let message := fault.pageMessage settings.debug settings.safeMessage
  if fault.isOfTemplate then (Html.faultPage message, views)
  else
    match Action.run (faultPageFrom settings message) views with
    | (.ok html, views) => (html, views)
    | (.error _, views) => (Html.faultPage message, views)

/-! ## Answering -/

/-- The site with other stores. -/
def withStores (site : Site) (stores : Stores) : Site := { site with stores }

/-- The site with other views. -/
def withViews (site : Site) (views : Views) : Site :=
  site.withStores { site.stores with views }

/-- The visit that a request starts. -/
def visit (site : Site) (request : Request) (route : Route) (now : Int) : Visit :=
  { settings := site.settings, router := site.router, request, route, now,
    stores := site.stores }

/-- What a request leads to, with the cookies to set, and the stores after it. -/
def outcome (site : Site) (request : Request) (now : Int) :
    Except Halt (Outcome × List Text) × Stores :=
  match site.router.route request.target with
  | .error fault => (.error (.fault fault), site.stores)
  | .ok route =>
    let route := site.registry.validate route
    match site.registry.controllerOf route with
    | .error _ =>
      let (result, views) := Action.run notFoundPage site.stores.views
      let page := result.map fun html => (Outcome.page Status.notFound.code html, [])
      (page.mapError .fault, { site.stores with views })
    | .ok controller =>
      let step : Visiting Outcome := do
        Visiting.recognize
        controller.serve
      let (result, visit) := Action.run step (site.visit request route now)
      (result.map fun outcome => (outcome, visit.cookies), visit.stores)

/-- The response that an outcome gives. -/
def respond (site : Site) (request : Request) : Outcome → Except Abort Response
  | .page code html => Response.ofCode site.compress html code request
  | .redirect location => .ok (.redirect location)

/-- The response to a request, and the site after it. -/
def handle (site : Site) (request : Request) (now : Int) : Except Abort Response × Site :=
  if request.method ∈ Response.served then
    let (result, stores) := site.outcome request now
    let site := site.withStores stores
    match result with
    | .ok (outcome, cookies) =>
      ((site.respond request outcome).map fun response =>
        cookies.foldl Response.withCookie response, site)
    | .error (.fault fault) =>
      let (html, views) := faultPage site.settings fault stores.views
      (.ok (.ofHtml site.compress html .internalServerError request), site.withViews views)
    | .error (.abort abort) => (.error abort, site)
  else (.ok (.methodNotAllowed site.compress request), site)

end Site
end PageServer
