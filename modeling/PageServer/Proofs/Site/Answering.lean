/-
# Every request is answered

A site with the controllers that every site has answers each request with one of
four statuses, whatever its templates are. Requests whose method is not served,
and those whose address leads nowhere, leave the sessions and the accounts as
they are and set no cookie.

* `Site.handle_of_options`, `Site.handle_of_entered_none`, …: the response in each case
* `Site.Ready.isAnswered`: what is answered to whoever makes a request
* `Site.Reachable`: the sites that come about from a fresh one
* `Site.answers_of_reachable`: each of them answers every request
-/
import PageServer.Proofs.Http.Responding
import PageServer.Proofs.Site.Accounts

namespace PageServer

/-! ## Responses -/

namespace Response

variable (compress : Compressor) (html : Text) (status : Status) (request : Request)

/-- A page is sent with its status, and sets no cookies. -/
theorem ofHtml_frame :
    (ofHtml compress html status request).status = status ∧
      (ofHtml compress html status request).cookies = [] := by
  unfold ofHtml
  split_ifs
  · exact ⟨rfl, rfl⟩
  · dsimp only
    split <;> exact ⟨rfl, rfl⟩

end Response

namespace Site

variable {site : Site} {arrival : Arrival}

/-! ## One request -/

/-- All methods but one are served. -/
theorem mem_served_iff {method : Method} : method ∈ Response.served ↔ method ≠ .options := by
  cases method <;> decide

/-- A request with a method that is not served changes nothing. -/
theorem handle_of_options (h : arrival.request.method = .options) :
    site.handle arrival.request arrival.now =
      (.ok (.methodNotAllowed site.compress arrival.request), site) := by
  unfold handle
  rw [if_neg fun hserved => mem_served_iff.mp hserved h]

/-- The response to a request that leads to a page. -/
theorem handle_of_page {html : Text} {status : Status} {cookies : List Text} {stores : Stores}
    (hserved : arrival.request.method ∈ Response.served)
    (hstatus : Status.ofCode? status.code = some status)
    (houtcome : site.outcome arrival.request arrival.now =
      (.ok (.page status.code html, cookies), stores)) :
    site.handle arrival.request arrival.now =
      (.ok { Response.ofHtml site.compress html status arrival.request with cookies },
        site.withStores stores) := by
  have hrespond : (site.withStores stores).respond arrival.request (.page status.code html) =
      .ok (Response.ofHtml site.compress html status arrival.request) := by
    simp only [respond, Response.ofCode, hstatus]
    rfl
  unfold handle
  rw [if_pos hserved, houtcome]
  dsimp only
  rw [hrespond]
  refine Prod.ext ?_ rfl
  show Except.ok (cookies.foldl Response.withCookie _) = _
  rw [Response.foldl_withCookie, (Response.ofHtml_frame _ _ _ _).2, List.nil_append]

/-- The response to a request that leads to a fault. -/
theorem handle_of_fault {fault : Fault} {stores : Stores}
    (hserved : arrival.request.method ∈ Response.served)
    (houtcome : site.outcome arrival.request arrival.now = (.error (.fault fault), stores)) :
    ∃ html views, site.handle arrival.request arrival.now =
      (.ok (.ofHtml site.compress html .internalServerError arrival.request),
        (site.withStores stores).withViews views) := by
  unfold handle
  rw [if_pos hserved, houtcome]
  exact ⟨_, _, rfl⟩

/-- The response to a request that enters no controller: there is nothing at its address, or not
even a page that says so. Nothing but the views can change. -/
theorem handle_of_not_entered (hserved : arrival.request.method ∈ Response.served)
    (h : site.entered arrival = none) :
    ∃ html views, ∃ status ∈ [Status.notFound, .internalServerError],
      site.handle arrival.request arrival.now =
        (.ok (.ofHtml site.compress html status arrival.request), site.withViews views) := by
  obtain ⟨views, ⟨html, houtcome⟩ | ⟨fault, houtcome⟩⟩ := outcome_of_entered_none hserved h
  · refine ⟨html, views, .notFound, by simp, ?_⟩
    rw [handle_of_page hserved (by decide) houtcome]
    refine Prod.ext (congrArg Except.ok ?_) rfl
    rw [← (Response.ofHtml_frame site.compress html .notFound arrival.request).2]
  · obtain ⟨html, after, hhandle⟩ := handle_of_fault hserved houtcome
    exact ⟨html, after, .internalServerError, by simp, hhandle⟩

/-- The response to a request that enters no controller sets no cookie. -/
theorem cookies_of_entered_none (h : site.entered arrival = none) {response : Response}
    (hresponse : (site.handle arrival.request arrival.now).1 = .ok response) :
    response.cookies = [] := by
  by_cases hmethod : arrival.request.method = .options
  · rw [handle_of_options hmethod] at hresponse
    rw [← Except.ok.inj hresponse]
    exact (Response.ofHtml_frame _ _ _ _).2
  · obtain ⟨html, views, status, -, hhandle⟩ :=
      handle_of_not_entered (mem_served_iff.mpr hmethod) h
    rw [hhandle] at hresponse
    rw [← Except.ok.inj hresponse]
    exact (Response.ofHtml_frame _ _ _ _).2

/-- The response to a request that enters a controller and leads to a page. -/
theorem handle_of_shown (hreached : site.stores.Reached) {controller : Controller} {v : Visit}
    (hentered : site.entered arrival = some (controller, v)) {html : Text}
    (hpage : (Action.run controller.serve v).1 = .ok (.page Status.ok.code html)) :
    site.handle arrival.request arrival.now =
      (.ok { Response.ofHtml site.compress html .ok arrival.request with
          cookies := (Action.run controller.serve v).2.cookies },
        site.withStores (Action.run controller.serve v).2.stores) := by
  obtain ⟨hserved, houtcome, -⟩ := outcome_of_entered hreached hentered
  rw [hpage] at houtcome
  exact handle_of_page hserved (by decide) houtcome

/-- The response to a request that enters a controller and leads to a fault. -/
theorem handle_of_failed (hreached : site.stores.Reached) {controller : Controller} {v : Visit}
    (hentered : site.entered arrival = some (controller, v)) {fault : Fault}
    (hfault : (Action.run controller.serve v).1 = .error (.fault fault)) :
    ∃ html views, site.handle arrival.request arrival.now =
      (.ok (.ofHtml site.compress html .internalServerError arrival.request),
        (site.withStores (Action.run controller.serve v).2.stores).withViews views) := by
  obtain ⟨hserved, houtcome, -⟩ := outcome_of_entered hreached hentered
  rw [hfault] at houtcome
  exact handle_of_fault hserved houtcome

/-- There is no response to a request that can not be dealt with. -/
theorem handle_of_aborted (hreached : site.stores.Reached) {controller : Controller} {v : Visit}
    (hentered : site.entered arrival = some (controller, v)) {abort : Abort}
    (habort : (Action.run controller.serve v).1 = .error (.abort abort)) :
    (site.handle arrival.request arrival.now).1 = .error abort := by
  obtain ⟨hserved, houtcome, -⟩ := outcome_of_entered hreached hentered
  rw [habort] at houtcome
  unfold handle
  rw [if_pos hserved, houtcome]
  rfl

/-! ## Rejected requests -/

/-- A request is rejected if its method is not served, or its address leads to no controller. -/
def Rejects (site : Site) (request : Request) : Prop :=
  request.method = .options ∨
    ∀ route, site.router.route request.target = .ok route → site.registry.accepts route = false

/-- A rejected request enters no controller. -/
theorem entered_of_rejects (h : site.Rejects arrival.request) : site.entered arrival = none := by
  unfold entered
  split_ifs with hserved
  · split
    · rfl
    · rename_i route hroute
      rcases h with hmethod | hrefused
      · exact absurd hmethod (mem_served_iff.mp hserved)
      · have hnone : ∀ controller, site.registry.controllerOf (site.registry.validate route) ≠
            .ok controller := by
          intro controller
          unfold Registry.controllerOf
          split
          · simp [Registry.validate, hrefused route hroute]
          · exact nofun
        dsimp only
        split
        · rfl
        · rename_i controller hcontroller
          exact absurd hcontroller (hnone controller)
  · rfl

/-! ## Numbers that are left -/

/-- A number is left for one more account. The accounts are kept in memory, which does not hold as
many of them as there are numbers. -/
def HasRoom (site : Site) : Prop := (site.stores.directory.length : Int) < Number.maxInt

/-- An account can be made as long as a number is left. -/
theorem create_ne_error {directory : Directory} (h : directory.Orderly)
    (hroom : (directory.length : Int) < Number.maxInt) (email password : Text) (abort : Abort) :
    directory.create email password ≠ .error abort := by
  unfold Directory.create
  rw [h.lastId_eq]
  dsimp only
  rw [if_neg (by omega)]
  exact nofun

/-- What a visit asks for can be done, if a number is left for an account. -/
theorem Ready.change_ne_error (horderly : site.stores.directory.Orderly)
    (hroom : site.HasRoom) {route : Route} {v : Visit}
    (hv : v = (site.visit arrival.request route arrival.now).recognized) (abort : Abort) :
    v.change ≠ .error abort := by
  intro hchange
  have hcreate := Visit.create_of_change hchange
  rw [hv, Visit.directory_recognized] at hcreate
  exact create_ne_error horderly hroom _ _ abort hcreate

/-- **A request is answered with a page of one of four statuses**, if a number is left for an
account, and one of them is for the method that is not served. -/
theorem Ready.exists_response (h : site.Ready) (horderly : site.stores.directory.Orderly)
    (hroom : site.HasRoom) (arrival : Arrival) :
    ∃ response, (site.handle arrival.request arrival.now).1 = .ok response ∧
      response.status.code ∈ [200, 404, 405, 500] ∧
      (response.status.code = 405 ↔ arrival.request.method = .options) := by
  by_cases hmethod : arrival.request.method = .options
  · refine ⟨_, congrArg Prod.fst (handle_of_options hmethod), ?_⟩
    have hstatus : (Response.methodNotAllowed site.compress arrival.request).status =
        .methodNotAllowed := (Response.ofHtml_frame _ _ _ _).1
    rw [hstatus]
    simp [hmethod, Status.methodNotAllowed]
  have hserved := mem_served_iff.mpr hmethod
  have hanswered : ∃ response, (site.handle arrival.request arrival.now).1 = .ok response ∧
      response.status.code ∈ [200, 404, 500] := by
    cases hentered : site.entered arrival with
    | none =>
        obtain ⟨html, views, status, hstatus, hhandle⟩ := handle_of_not_entered hserved hentered
        refine ⟨_, congrArg Prod.fst hhandle, ?_⟩
        rw [(Response.ofHtml_frame _ _ _ _).1]
        exact List.mem_cons_of_mem 200 (List.mem_map_of_mem hstatus)
    | some entered =>
        obtain ⟨controller, v⟩ := entered
        obtain ⟨hcourse, route, hv⟩ := h.course hentered
        rcases hcourse.isPage_or with
          (⟨html, hpage⟩ | ⟨fault, hfault, -⟩) | ⟨abort, hchange, -⟩
        · refine ⟨_, congrArg Prod.fst (handle_of_shown h.reached hentered hpage), ?_⟩
          rw [(Response.ofHtml_frame _ _ _ _).1]
          exact List.mem_cons_self
        · obtain ⟨html, views, hhandle⟩ := handle_of_failed h.reached hentered hfault
          refine ⟨_, congrArg Prod.fst hhandle, ?_⟩
          rw [(Response.ofHtml_frame _ _ _ _).1]
          decide
        · exact absurd hchange (Ready.change_ne_error horderly hroom hv abort)
  obtain ⟨response, hresponse, hstatus⟩ := hanswered
  refine ⟨response, hresponse, ?_, ?_⟩
  · simp only [List.mem_cons, List.not_mem_nil, or_false] at hstatus ⊢
    omega
  · refine iff_of_false ?_ hmethod
    intro hcode
    rw [hcode] at hstatus
    exact absurd hstatus (by decide)

/-- A rejected request leaves the sessions and the accounts as they are, and sets no cookie. -/
theorem handle_of_rejects (h : site.Rejects arrival.request) :
    (site.handle arrival.request arrival.now).2.stores.sessions = site.stores.sessions ∧
      (site.handle arrival.request arrival.now).2.stores.directory = site.stores.directory ∧
      ∀ response, (site.handle arrival.request arrival.now).1 = .ok response →
        response.cookies = [] := by
  have hentered := entered_of_rejects h
  obtain ⟨views, hstores⟩ := handle_of_entered_none hentered
  refine ⟨by rw [hstores], by rw [hstores], ?_⟩
  intro response hresponse
  exact cookies_of_entered_none hentered hresponse

/-! ## Sites that come about -/

/-- The sites that come about from a fresh one: their templates change in any way, and they answer
requests. -/
inductive Reachable (hours : Int) (tokenOf : Nat → Text) : Site → Prop
  /-- The site is fresh. -/
  | fresh {site : Site} (hfresh : site.Fresh hours tokenOf) : Reachable hours tokenOf site
  /-- Its templates have changed. -/
  | edited {site : Site} (hsite : Reachable hours tokenOf site) (views : Views) :
    Reachable hours tokenOf (site.withViews views)
  /-- It has answered a request. -/
  | handled {site : Site} (hsite : Reachable hours tokenOf site) (arrival : Arrival) :
    Reachable hours tokenOf (site.handle arrival.request arrival.now).2

variable {hours : Int} {tokenOf : Nat → Text}

/-- Such a site is ready, and its accounts are in order. -/
theorem Reachable.ready (h : Reachable hours tokenOf site) :
    site.Ready ∧ site.stores.directory.Orderly := by
  induction h with
  | fresh hfresh =>
      refine ⟨⟨hfresh.builtin, hfresh.reached⟩, ?_⟩
      rw [hfresh.directory]
      exact Directory.orderly_nil
  | edited hsite views ih =>
      obtain ⟨hready, horderly⟩ := ih
      exact ⟨⟨hready.builtin, ⟨hready.reached.sessions, hready.reached.directory⟩⟩, horderly⟩
  | handled hsite arrival ih =>
      refine ⟨ih.1.handle arrival, ?_⟩
      rcases ih.1.accounts_handle arrival with hsame | ⟨account, hmakes⟩
      · rw [hsame]
        exact ih.2
      · rw [hmakes.directory_eq, hmakes.account_eq]
        exact ih.2.concat _ hmakes.free

/-- **Every request is answered, and rejected requests touch nothing.** A site that has come about
from a fresh one, over any templates, answers each request, as long as a number is left for one
more account:

* the status is one of four;
* it is that for a method which is not served exactly for requests with such a method;
* a request with such a method, or with an address that leads to no controller, leaves the
  sessions and the accounts as they are and sets no cookie. -/
theorem answers_of_reachable (h : Reachable hours tokenOf site) (hroom : site.HasRoom)
    (arrival : Arrival) :
    ∃ response, (site.handle arrival.request arrival.now).1 = .ok response ∧
      response.status.code ∈ [200, 404, 405, 500] ∧
      (response.status.code = 405 ↔ arrival.request.method = .options) ∧
      (site.Rejects arrival.request →
        (site.handle arrival.request arrival.now).2.stores.sessions = site.stores.sessions ∧
        (site.handle arrival.request arrival.now).2.stores.directory = site.stores.directory ∧
        response.cookies = []) := by
  obtain ⟨hready, horderly⟩ := h.ready
  obtain ⟨response, hresponse, hstatus, hoptions⟩ := hready.exists_response horderly hroom arrival
  refine ⟨response, hresponse, hstatus, hoptions, fun hrejects => ?_⟩
  obtain ⟨hsessions, hdirectory, hcookies⟩ := handle_of_rejects hrejects
  exact ⟨hsessions, hdirectory, hcookies response hresponse⟩

/-! ## A site whose templates are lost -/

/-- The sample site after somebody has registered and all its templates have been lost. -/
def bareSample : Site :=
  ((sample.handle (sampleRun 0).request (sampleRun 0).now).2).withViews
    { disk := {}, recent := { capacity := 1 }, maxAge := 0 }

/-- Somebody asks for what is not there. -/
def strayRequest : Arrival := { request := sampleForm "/nothing/here" [] [], now := 1000 }

/-- A request for what is not there is answered also without templates, and the account stays. -/
theorem answers_of_reachable_sample :
    bareSample.Reachable 1 sampleTokens ∧ bareSample.HasRoom ∧
      bareSample.Rejects strayRequest.request ∧
      ∃ response, (bareSample.handle strayRequest.request strayRequest.now).1 = .ok response ∧
        response.status.code ∈ [200, 404, 405, 500] ∧ response.cookies = [] ∧
        (bareSample.handle strayRequest.request strayRequest.now).2.stores.directory.length =
          1 := by
  have hreachable : bareSample.Reachable 1 sampleTokens :=
    .edited (.handled (.fresh fresh_sample) (sampleRun 0)) _
  have hlength : bareSample.stores.directory.length = 1 := by decide +kernel
  have hroom : bareSample.HasRoom := by
    rw [HasRoom, hlength]
    decide
  have hrejects : bareSample.Rejects strayRequest.request := by
    have hroute : bareSample.router.route strayRequest.request.target =
        .ok (Route.ofPath "nothing/here") := by
      decide +kernel
    refine Or.inr fun route hfound => ?_
    rw [hroute] at hfound
    rw [← Except.ok.inj hfound]
    decide +kernel
  obtain ⟨response, hresponse, hstatus, -, hrejected⟩ :=
    answers_of_reachable hreachable hroom strayRequest
  obtain ⟨-, hdirectory, hcookies⟩ := hrejected hrejects
  refine ⟨hreachable, hroom, hrejects, response, hresponse, hstatus, hcookies, ?_⟩
  rw [hdirectory, hlength]

end Site
end PageServer
