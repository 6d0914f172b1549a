/-
# Requests that end with a fault

What a request asks for is done before its page is made, and nothing is taken
back when the page fails. So a request that ends with the page for a fault has
done nothing, unless it has logged in, made an account or logged out, and only
the page that says so has failed.

* `Site.Expires`, `Site.Knows`: the sessions that are left when it is known who makes a request
* `Site.Done`: what a request may have done
* `Site.FailsToTell`: a request whose message page fails
* `Site.stores_of_failed`: what a request has done that ends with a fault
* `Site.done_despite_fault`: a request that has made an account, and one that has logged in
-/
import PageServer.Proofs.Site.Answering

namespace PageServer

namespace Site

variable {site : Site} {arrival : Arrival}

/-! ## Who makes a request -/

/-- The token that comes with a request has a session that has lasted too long. -/
def Expires (site : Site) (arrival : Arrival) (token : Text) : Prop :=
  arrival.Presents token ∧ ∃ session, site.stores.sessions.find? token = some session ∧
    site.stores.sessions.length < arrival.now - session.updated

/-- The sessions that are left when it is known who makes a request: all of them, or all but that
of its token, which has lasted too long. -/
def Knows (site : Site) (arrival : Arrival) (known : Sessions) : Prop :=
  known = site.stores.sessions ∨
    ∃ token, site.Expires arrival token ∧ known = site.stores.sessions.remove token

/-- The sessions of a visit that has been recognized are such. -/
theorem knows_recognized (route : Route) :
    site.Knows arrival
      (site.visit arrival.request route arrival.now).recognized.stores.sessions := by
  cases hcookie : arrival.request.cookie? Visiting.sessionCookie with
  | none =>
      rw [Visit.recognized_of_cookie_eq_none
        (v := site.visit arrival.request route arrival.now) hcookie]
      exact Or.inl rfl
  | some token =>
      rw [Visit.sessions_recognized
        (v := site.visit arrival.request route arrival.now) hcookie]
      show site.Knows arrival (site.stores.sessions.current token arrival.now).2
      rcases site.stores.sessions.current_snd token arrival.now with hsame | ⟨hlong, hremoved⟩
      · exact Or.inl hsame
      · exact Or.inr ⟨token, ⟨hcookie, hlong⟩, hremoved⟩

/-! ## What a request may have done -/

/-- What a request may have done to the sessions that were left when it was known who makes it,
and to the accounts. -/
inductive Done (site : Site) (arrival : Arrival) (known : Sessions) (after : Stores) : Prop
  /-- It has logged in with the password of the account. -/
  | loggedIn (user : User) (session : Option Text)
      (hsession : ∀ token, session = some token → arrival.Presents token)
      (hfound : site.stores.directory.findByEmail arrival.email = some user)
      (hverified : site.stores.directory.verify user arrival.password = true)
      (hsessions : after.sessions = (known.update session user.id arrival.now).2)
      (hdirectory : after.directory = site.stores.directory)
  /-- It has made an account for an address that had none. -/
  | registered (hfree : site.stores.directory.findByEmail arrival.email = none)
      (hsessions : after.sessions = known)
      (hdirectory : after.directory = site.stores.directory ++
        [site.stores.directory.newAccount arrival.email arrival.password])
  /-- It has logged out. -/
  | loggedOut (token : Text) (hpresents : arrival.Presents token)
      (hsessions : after.sessions = known.remove token)
      (hdirectory : after.directory = site.stores.directory)

/-- A request has done what it asks for, and the page that says so fails by the views. -/
def FailsToTell (site : Site) (arrival : Arrival) : Prop :=
  ∃ controller v v' w title message link fault,
    site.entered arrival = some (controller, v) ∧ v.change = .ok (some v') ∧ v'.OnlyPage w ∧
      (Action.run (Visiting.successPage title message link) w).1 = .error (.fault fault) ∧
      fault.IsOfViews

/-- What is asked for is nothing, or one of the three things that a request may do. -/
theorem done_of_change {route : Route} {v v' : Visit}
    (hv : v = (site.visit arrival.request route arrival.now).recognized)
    (hchange : v.change = .ok (some v')) {after : Stores}
    (hsessions : after.sessions = v'.stores.sessions)
    (hdirectory : after.directory = v'.stores.directory) :
    (after.sessions = v.stores.sessions ∧ after.directory = site.stores.directory) ∨
      site.Done arrival v.stores.sessions after := by
  have hpresents : ∀ token, v.session = some token → arrival.Presents token := by
    intro token htoken
    rw [hv] at htoken
    exact Visit.cookie_of_session_recognized (v := site.visit arrival.request route arrival.now)
      rfl htoken
  obtain ⟨sessions, user, session, hframe⟩ :=
    (site.visit arrival.request route arrival.now).recognized_frame
  rw [hframe] at hv
  have hsame : v.stores.directory = site.stores.directory := by rw [hv]; rfl
  have hemail : v.email = arrival.email := by rw [hv]; rfl
  have hpassword : v.password = arrival.password := by rw [hv]; rfl
  have hnow : v.now = arrival.now := by rw [hv]; rfl
  rcases Auth.change_cases (Visit.change_eq_some hchange) with ⟨-, hlogin⟩ | hregister | rfl
  · obtain ⟨-, owner, hcredited, rfl⟩ := Auth.loginChange_eq_some_iff.mp hlogin
    obtain ⟨hfound, hverified⟩ := Auth.credited?_eq_some_iff.mp hcredited
    rw [hsame, hemail] at hfound
    rw [hsame, hpassword] at hverified
    refine Or.inr (.loggedIn owner v.session hpresents hfound hverified ?_
      (hdirectory.trans hsame))
    rw [hsessions, ← hnow]
    rfl
  · obtain ⟨-, hfree, owner, directory, hcreated, rfl⟩ :=
      Auth.registerChange_eq_ok_some_iff.mp hregister
    have hmade := Directory.eq_newAccount_of_create hcreated
    rw [hsame, hemail] at hfree
    rw [hsame, hemail, hpassword] at hmade
    exact Or.inr (.registered hfree hsessions (hdirectory.trans hmade))
  · cases hsession : v.session with
    | none =>
        refine Or.inl ⟨?_, hdirectory.trans hsame⟩
        rw [hsessions]
        simp only [Visit.loggedOut, hsession]
        rfl
    | some token =>
        refine Or.inr (.loggedOut token (hpresents token hsession) ?_ (hdirectory.trans hsame))
        rw [hsessions]
        simp only [Visit.loggedOut, hsession]
        rfl

/-- A request that enters a controller and is answered with the page for a fault has led to a
fault, and sets no cookie. -/
theorem Ready.exists_fault (h : site.Ready) {controller : Controller} {v : Visit}
    (hentered : site.entered arrival = some (controller, v)) {response : Response}
    (hresponse : (site.handle arrival.request arrival.now).1 = .ok response)
    (hstatus : response.status.code = 500) :
    response.cookies = [] ∧
      ∃ fault, (Action.run controller.serve v).1 = .error (.fault fault) := by
  rcases (h.course hentered).1.isPage_or with
    (⟨html, hpage⟩ | ⟨fault, hfault, -⟩) | ⟨abort, -, habort⟩
  · rw [handle_of_shown h.reached hentered hpage] at hresponse
    rw [← Except.ok.inj hresponse] at hstatus
    rw [(Response.ofHtml_frame _ _ _ _).1] at hstatus
    exact absurd hstatus (by decide)
  · obtain ⟨html, views, hhandle⟩ := handle_of_failed h.reached hentered hfault
    rw [hhandle] at hresponse
    rw [← Except.ok.inj hresponse]
    exact ⟨(Response.ofHtml_frame _ _ _ _).2, fault, hfault⟩
  · rw [handle_of_aborted h.reached hentered habort] at hresponse
    contradiction

/-- What a request that enters a controller and leads to a fault has done. -/
theorem Ready.done_of_fault (h : site.Ready) {controller : Controller} {v : Visit}
    (hentered : site.entered arrival = some (controller, v)) {fault : Fault}
    (hfault : (Action.run controller.serve v).1 = .error (.fault fault)) {after : Stores}
    (hsessions : after.sessions = (Action.run controller.serve v).2.stores.sessions)
    (hdirectory : after.directory = (Action.run controller.serve v).2.stores.directory) :
    (after.sessions = v.stores.sessions ∧ after.directory = site.stores.directory) ∨
      (site.FailsToTell arrival ∧ site.Done arrival v.stores.sessions after) := by
  obtain ⟨hcourse, route, hv⟩ := h.course hentered
  have hsame : v.stores.directory = site.stores.directory := by
    rw [hv]
    exact Visit.directory_recognized _
  cases hcourse with
  | broken hviews hended hpage =>
      rw [hpage.sessions_eq] at hsessions
      rw [hpage.directory_eq, hsame] at hdirectory
      exact Or.inl ⟨hsessions, hdirectory⟩
  | shown hchange hended hpage =>
      rw [hended] at hfault
      contradiction
  | full hchange hended hpage =>
      rw [hended] at hfault
      exact absurd (Except.error.inj hfault) nofun
  | @changed v' w title message link hchange hpage hended =>
      have hafter := hpage.trans (Visiting.makesPage_successPage title message link w)
      rw [hended] at hfault hsessions hdirectory
      rw [hafter.sessions_eq] at hsessions
      rw [hafter.directory_eq] at hdirectory
      rcases done_of_change hv hchange hsessions hdirectory with hkept | hdone
      · exact Or.inl hkept
      · refine Or.inr ⟨⟨controller, v, v', w, title, message, link, fault, hentered, hchange,
          hpage, hfault, ?_⟩, hdone⟩
        rcases Visiting.showsPage_successPage title message link w with
          ⟨html, hhtml⟩ | ⟨problem, hproblem, hviews⟩
        · rw [hhtml] at hfault
          contradiction
        · rw [hproblem] at hfault
          rw [← Halt.fault.inj (Except.error.inj hfault)]
          exact hviews

/-- **What a request has done that ends with the page for a fault**: nothing but that the session
of its token may have ended, because it had lasted too long; or it has logged in, made an account,
or logged out, and only the page that says so has failed by the views. It sets no cookie in
any case. -/
theorem stores_of_failed (h : site.Ready) (arrival : Arrival) {response : Response}
    (hresponse : (site.handle arrival.request arrival.now).1 = .ok response)
    (hstatus : response.status.code = 500) :
    response.cookies = [] ∧
      ∃ known, site.Knows arrival known ∧
        (((site.handle arrival.request arrival.now).2.stores.sessions = known ∧
            (site.handle arrival.request arrival.now).2.stores.directory =
              site.stores.directory) ∨
          (site.FailsToTell arrival ∧
            site.Done arrival known (site.handle arrival.request arrival.now).2.stores)) := by
  cases hentered : site.entered arrival with
  | none =>
      obtain ⟨views, hstores⟩ := handle_of_entered_none hentered
      refine ⟨cookies_of_entered_none hentered hresponse, site.stores.sessions, Or.inl rfl,
        Or.inl ?_⟩
      rw [hstores]
      exact ⟨rfl, rfl⟩
  | some entered =>
      obtain ⟨controller, v⟩ := entered
      obtain ⟨hcookies, fault, hfault⟩ := h.exists_fault hentered hresponse hstatus
      obtain ⟨-, route, hv⟩ := h.course hentered
      obtain ⟨views, hstores⟩ := handle_of_entered h.reached hentered
      refine ⟨hcookies, v.stores.sessions, ?_, ?_⟩
      · rw [hv]
        exact knows_recognized route
      · apply h.done_of_fault hentered hfault
        · rw [hstores]
        · rw [hstores]

/-! ## A site without its message page -/

/-- The sample site without the template of pages with a message. -/
def muteSample : Site :=
  sample.withViews
    { disk :=
        { entries :=
            ([["auth", "register.html"], ["auth", "login.html"]] : List (List String)).map
              fun path => (path.map String.toList, .file [] 0) }
      recent := { capacity := 1 }
      maxAge := 0 }

/-- The code of the status that a request is answered with, and the cookies that are set. -/
def answer? (site : Site) (arrival : Arrival) : Option (Nat × List Text) :=
  (site.handle arrival.request arrival.now).1.toOption.map fun response =>
    (response.status.code, response.cookies)

/-- There is a response with this code and these cookies. -/
theorem exists_of_answer? {code : Nat} {cookies : List Text}
    (h : site.answer? arrival = some (code, cookies)) :
    ∃ response, (site.handle arrival.request arrival.now).1 = .ok response ∧
      response.status.code = code ∧ response.cookies = cookies := by
  unfold answer? at h
  cases hhandle : (site.handle arrival.request arrival.now).1 with
  | error abort =>
      rw [hhandle] at h
      contradiction
  | ok response =>
      rw [hhandle] at h
      obtain ⟨hcode, hcookies⟩ := Prod.mk.inj (Option.some.inj h)
      exact ⟨response, rfl, hcode, hcookies⟩

/-- Without that template somebody registers and logs in. Both requests end with the page for a
fault, but there is an account after the first one, and after the second one there is a session
whose token was given to nobody. -/
theorem done_despite_fault :
    muteSample.Ready ∧
      (muteSample.answer? (sampleRun 0) = some (500, []) ∧
        (muteSample.meeting sampleRun 0).stores.directory.length = 0 ∧
        (muteSample.meeting sampleRun 1).stores.directory.length = 1) ∧
      ((muteSample.meeting sampleRun 1).answer? (sampleRun 1) = some (500, []) ∧
        (muteSample.meeting sampleRun 1).stores.sessions.find? "a" = none ∧
        (muteSample.meeting sampleRun 2).stores.sessions.find? "a" =
          some { userId := 1, updated := 1000 }) := by
  refine ⟨⟨rfl, rfl, rfl⟩, ⟨?_, rfl, ?_⟩, ?_, ?_, ?_⟩
  all_goals decide +kernel

/-- In the first of these requests the page that says that there is an account has failed. -/
theorem stores_of_failed_sample :
    ∃ response, (muteSample.handle (sampleRun 0).request (sampleRun 0).now).1 = .ok response ∧
      response.status.code = 500 ∧ response.cookies = [] ∧
      muteSample.FailsToTell (sampleRun 0) ∧
      ∃ known, muteSample.Done (sampleRun 0) known
        (muteSample.handle (sampleRun 0).request (sampleRun 0).now).2.stores := by
  have hanswer : muteSample.answer? (sampleRun 0) = some (500, []) := by decide +kernel
  have hlength : (muteSample.handle (sampleRun 0).request
      (sampleRun 0).now).2.stores.directory.length = 1 := by
    decide +kernel
  obtain ⟨response, hresponse, hcode, -⟩ := exists_of_answer? hanswer
  obtain ⟨hcookies, known, -, ⟨-, hsame⟩ | ⟨hfails, hdone⟩⟩ :=
    stores_of_failed ⟨rfl, rfl, rfl⟩ (sampleRun 0) hresponse hcode
  · rw [hsame] at hlength
    exact absurd hlength (by decide)
  · exact ⟨response, hresponse, hcode, hcookies, hfails, known, hdone⟩

end Site
end PageServer
