/-
# Who is logged in

A run of a site is a row of requests, each with the time when it comes. On a
site with the controllers that every site has, whose sessions and accounts are
empty at first, somebody is logged in only by the token that an earlier request
was given for the right password.

* `Site.meeting`: the site that a request of a run meets
* `Site.LogsIn`, `Site.LogsOut`: requests that start and end a session
* `Site.find?_handle`: how one request can bring a session about
* `Site.isLoggedIn_of_run`: where a user that is logged in comes from
-/
import PageServer.Proofs.Site.Recognizing

namespace PageServer

/-! ## Runs -/

/-- A request and the time in milliseconds when it comes. -/
structure Arrival where
  /-- The request. -/
  request : Request
  /-- The time when it comes. -/
  now : Int

/-- A request comes with a token. -/
def Arrival.Presents (arrival : Arrival) (token : Text) : Prop :=
  arrival.request.cookie? Visiting.sessionCookie = some token

namespace Site

/-- The site that a request of a run meets, after all those before it. -/
def meeting (site : Site) (arrivals : Nat → Arrival) : Nat → Site
  | 0 => site
  | n + 1 => ((site.meeting arrivals n).handle (arrivals n).request (arrivals n).now).2

/-- The controller that answers a request, and the visit when it begins; there is none for a
method that is not served, or an address that leads nowhere. -/
def entered (site : Site) (arrival : Arrival) : Option (Controller × Visit) :=
  if arrival.request.method ∈ Response.served then
    match site.router.route arrival.request.target with
    | .error _ => none
    | .ok route =>
      let route := site.registry.validate route
      match site.registry.controllerOf route with
      | .error _ => none
      | .ok controller =>
        let visit := site.visit arrival.request route arrival.now
        some (controller, (Action.run Visiting.recognize visit).2)
  else none

/-- The user that a request is served with. -/
def userOf? (site : Site) (arrival : Arrival) : Option User :=
  (site.entered arrival).map fun entered => entered.2.user

/-- The visit of a request at its end. -/
def answered? (site : Site) (arrival : Arrival) : Option Visit :=
  (site.entered arrival).map fun entered => (Action.run entered.1.serve entered.2).2

/-- A request logs in to the account with a number: its address for mail and its password are
those of the account, and the session that starts has a token that was made up for it. -/
structure LogsIn (site : Site) (arrival : Arrival) (token : Text) (id : Int) : Prop where
  /-- The password is that of the account. -/
  verified : ∃ user, user.id = id ∧
    site.stores.directory.findByEmail (Text.trim (arrival.request.inputOr "email" "")) =
      some user ∧
    site.stores.directory.verify user (arrival.request.inputOr "password" "") = true
  /-- The token is the next one to be made up. -/
  token_eq : token = site.stores.sessions.tokenOf site.stores.sessions.issued
  /-- No session had it. -/
  fresh : site.stores.sessions.find? token = none
  /-- The session of the account has it from now on. -/
  started : (site.handle arrival.request arrival.now).2.stores.sessions.find? token =
    some { userId := id, updated := arrival.now }
  /-- The browser is given the token. -/
  given : ∃ visit, site.answered? arrival = some visit ∧ visit.session = some token ∧
    Visiting.tokenCookie token (site.settings.sessionHours * 3600) ∈ visit.cookies

/-- A request logs out: the token is taken from the browser. -/
def LogsOut (site : Site) (arrival : Arrival) : Prop :=
  ∃ visit, site.answered? arrival = some visit ∧ Visiting.tokenCookie [] 0 ∈ visit.cookies

end Site

/-! ## One request -/

namespace Site

variable {site : Site} {arrival : Arrival}

/-- The settings and the controllers of a site stay. -/
theorem handle_frame (site : Site) (request : Request) (now : Int) :
    (site.handle request now).2.settings = site.settings ∧
      (site.handle request now).2.registry = site.registry := by
  unfold handle
  split_ifs
  · dsimp only
    split <;> exact ⟨rfl, rfl⟩
  · exact ⟨rfl, rfl⟩

/-- A request that enters no controller leads to the page for what is not there, or to a fault. -/
theorem outcome_of_entered_none (hserved : arrival.request.method ∈ Response.served)
    (h : site.entered arrival = none) :
    ∃ views, (∃ html, site.outcome arrival.request arrival.now =
        (.ok (.page Status.notFound.code html, []), { site.stores with views })) ∨
      ∃ fault, site.outcome arrival.request arrival.now =
        (.error (.fault fault), { site.stores with views }) := by
  cases hroute : site.router.route arrival.request.target with
  | error fault =>
      refine ⟨site.stores.views, Or.inr ⟨fault, ?_⟩⟩
      rw [outcome, hroute]
  | ok route =>
      cases hcontroller : site.registry.controllerOf (site.registry.validate route) with
      | ok controller =>
          rw [entered, if_pos hserved, hroute] at h
          dsimp only at h
          rw [hcontroller] at h
          contradiction
      | error refused =>
          rw [outcome, hroute]
          dsimp only
          rw [hcontroller]
          rcases hpage : Action.run notFoundPage site.stores.views with ⟨fault | html, views⟩
          · exact ⟨views, Or.inr ⟨fault, rfl⟩⟩
          · exact ⟨views, Or.inl ⟨html, rfl⟩⟩

/-- A request that enters no controller leaves the sessions and the accounts. -/
theorem handle_of_entered_none (h : site.entered arrival = none) :
    ∃ views, (site.handle arrival.request arrival.now).2.stores = { site.stores with views } := by
  unfold handle
  split_ifs with hserved
  · obtain ⟨views, ⟨html, houtcome⟩ | ⟨fault, houtcome⟩⟩ := outcome_of_entered_none hserved h
    · rw [houtcome]
      exact ⟨views, rfl⟩
    · rw [houtcome]
      exact ⟨_, rfl⟩
  · exact ⟨_, rfl⟩

/-- A request that enters a controller leads to what the controller gives, for who has been
recognized. -/
theorem outcome_of_entered (hreached : site.stores.Reached) {controller : Controller}
    {visit : Visit} (h : site.entered arrival = some (controller, visit)) :
    arrival.request.method ∈ Response.served ∧
      site.outcome arrival.request arrival.now =
        ((Action.run controller.serve visit).1.map fun outcome =>
            (outcome, (Action.run controller.serve visit).2.cookies),
          (Action.run controller.serve visit).2.stores) ∧
      site.registry.controllerOf visit.route = .ok controller ∧
      ∃ route, visit = (site.visit arrival.request route arrival.now).recognized := by
  unfold entered at h
  split_ifs at h with hmethod
  split at h
  · contradiction
  · rename_i route hroute
    dsimp only at h
    split at h
    · contradiction
    · rename_i found hcontroller
      obtain ⟨rfl, hvisit⟩ := Prod.mk.inj (Option.some.inj h)
      have hrun := Visit.run_recognize
        (v := site.visit arrival.request (site.registry.validate route) arrival.now) hreached
      have hrecognized : visit =
          (site.visit arrival.request (site.registry.validate route) arrival.now).recognized := by
        rw [← hvisit, hrun]
      refine ⟨hmethod, ?_, ?_, _, hrecognized⟩
      · unfold outcome
        simp only [hroute, hcontroller, Action.run_bind_of_ok hrun, ← hrecognized]
      · obtain ⟨_, _, _, hframe⟩ := (site.visit arrival.request (site.registry.validate route)
          arrival.now).recognized_frame
        rw [hrecognized, hframe]
        exact hcontroller

/-- A request that enters a controller leaves the sessions and the accounts as the controller
does. -/
theorem handle_of_entered (hreached : site.stores.Reached) {controller : Controller}
    {visit : Visit} (h : site.entered arrival = some (controller, visit)) :
    ∃ views, (site.handle arrival.request arrival.now).2.stores =
      { (Action.run controller.serve visit).2.stores with views } := by
  obtain ⟨hmethod, houtcome, -⟩ := outcome_of_entered hreached h
  unfold handle
  rw [if_pos hmethod, houtcome]
  dsimp only
  split <;> exact ⟨_, rfl⟩

/-- A site with the controllers that every site has, on sound stores that can be reached. -/
structure Sound (site : Site) : Prop where
  /-- The controllers are those that every site has. -/
  builtin : Site.builtin = .ok site.registry
  /-- Both stores can be reached. -/
  reached : site.stores.Reached
  /-- The stores are sound. -/
  stores : site.stores.Sound

/-- **What a request does**: it enters no controller and leaves the sessions and the accounts,
or somebody is recognized and served. -/
theorem Sound.handle_cases (h : site.Sound) (arrival : Arrival) :
    (site.entered arrival = none ∧ ∃ views,
      (site.handle arrival.request arrival.now).2.stores = { site.stores with views }) ∨
    ∃ controller route v w views, site.entered arrival = some (controller, v) ∧
      site.answered? arrival = some w ∧
      (site.visit arrival.request route arrival.now).Recognition v ∧ v.Served w ∧
      (site.handle arrival.request arrival.now).2.stores = { w.stores with views } := by
  cases hentered : site.entered arrival with
  | none => exact Or.inl ⟨rfl, handle_of_entered_none hentered⟩
  | some entered =>
      obtain ⟨controller, v⟩ := entered
      obtain ⟨views, hstores⟩ := handle_of_entered h.reached hentered
      obtain ⟨-, -, hcontroller, route, rfl⟩ := outcome_of_entered h.reached hentered
      have hrecognition : (site.visit arrival.request route arrival.now).Recognition
          (site.visit arrival.request route arrival.now).recognized :=
        Visit.recognition h.stores rfl rfl
      have hanswered : site.answered? arrival = some (Action.run controller.serve
          (site.visit arrival.request route arrival.now).recognized).2 := by
        rw [answered?, hentered, Option.map_some]
      have hcourse := course_of_builtin h.builtin hcontroller (hrecognition.reached h.reached)
      exact Or.inr ⟨controller, route, _, _, views, rfl, hanswered, hrecognition,
        hcourse.served, hstores⟩

/-- **Answering a request keeps a site sound.** -/
theorem Sound.handle (h : site.Sound) (arrival : Arrival) :
    (site.handle arrival.request arrival.now).2.Sound := by
  have hbuiltin : Site.builtin = .ok (site.handle arrival.request arrival.now).2.registry := by
    rw [(handle_frame _ _ _).2]
    exact h.builtin
  rcases h.handle_cases arrival with
    ⟨-, views, hstores⟩ | ⟨controller, route, v, w, views, -, -, hrecognition, hserved, hstores⟩
  · refine ⟨hbuiltin, ?_, ?_⟩
    · rw [hstores]
      exact ⟨h.reached.sessions, h.reached.directory⟩
    · rw [hstores]
      exact h.stores.withViews views
  · have hreached := hserved.reached (hrecognition.reached h.reached)
    refine ⟨hbuiltin, ?_, ?_⟩
    · rw [hstores]
      exact ⟨hreached.sessions, hreached.directory⟩
    · rw [hstores]
      exact (hserved.sound hrecognition).withViews views

/-- For how long sessions last, and which tokens they get, stays. -/
theorem Sound.handle_sessions_frame (h : site.Sound) (arrival : Arrival) :
    (site.handle arrival.request arrival.now).2.stores.sessions.length =
        site.stores.sessions.length ∧
      (site.handle arrival.request arrival.now).2.stores.sessions.tokenOf =
        site.stores.sessions.tokenOf := by
  rcases h.handle_cases arrival with
    ⟨-, views, hstores⟩ | ⟨controller, route, v, w, views, -, -, hrecognition, hserved, hstores⟩
  · rw [hstores]
    exact ⟨rfl, rfl⟩
  · obtain ⟨_, _, _, rfl, hlength, htokenOf, -⟩ := hrecognition.frame
    obtain ⟨hlength', htokenOf'⟩ := hserved.sessions_frame
    rw [hstores]
    exact ⟨hlength'.trans hlength, htokenOf'.trans htokenOf⟩

/-- **How a token comes to have a session.** It had the same session before, and the request did
not log out if it came with the token; or the request logged in. -/
theorem Sound.find?_handle (h : site.Sound) {token : Text} {session : Session}
    (hfind : (site.handle arrival.request arrival.now).2.stores.sessions.find? token =
      some session) :
    (site.stores.sessions.find? token = some session ∧
      (arrival.Presents token → ¬ site.LogsOut arrival)) ∨
    (site.LogsIn arrival token session.userId ∧ session.updated = arrival.now) := by
  have hfind' := hfind
  rcases h.handle_cases arrival with
    ⟨hentered, views, hstores⟩ |
    ⟨controller, route, v, w, views, -, hanswered, hrecognition, hserved, hstores⟩
  · rw [hstores] at hfind'
    refine Or.inl ⟨hfind', ?_⟩
    rintro - ⟨visit, hvisit, -⟩
    rw [answered?, hentered] at hvisit
    contradiction
  · rw [hstores] at hfind'
    rcases hserved.find? hrecognition rfl hfind' with
      ⟨hbefore, hkept⟩ | ⟨user, hfound, hverified, hnew, rfl, hsession, hgiven⟩
    · refine Or.inl ⟨hbefore, ?_⟩
      rintro hpresents ⟨visit, hvisit, hout⟩
      obtain rfl := Option.some.inj (hanswered.symm.trans hvisit)
      exact hkept hpresents hout
    · refine Or.inr ⟨⟨⟨user, rfl, hfound, hverified⟩, hnew, ?_, hfind,
        ⟨w, hanswered, hsession, hgiven⟩⟩, rfl⟩
      subst hnew
      exact h.stores.find?_next

/-- A visit of nobody that has logged in has the next token. -/
theorem Sound.logsIn_of_loggedInAs (h : site.Sound) {route : Route} {v w : Visit}
    (hrecognition : (site.visit arrival.request route arrival.now).Recognition v)
    (hnone : v.session = none) {user : User} (hpage : (v.loggedInAs user).OnlyPage w)
    {views : Views}
    (hstores : (site.handle arrival.request arrival.now).2.stores = { w.stores with views }) :
    site.LogsIn arrival (site.stores.sessions.tokenOf site.stores.sessions.issued) user.id := by
  rw [Visit.loggedInAs_of_session_eq_none hnone] at hpage
  obtain ⟨sessions, _, _, heq, -, htokenOf, hissued⟩ := hrecognition.frame
  have hsame : v.stores.sessions = sessions := by rw [heq]
  have hfind : (site.handle arrival.request arrival.now).2.stores.sessions.find?
      (site.stores.sessions.tokenOf site.stores.sessions.issued) =
        some { userId := user.id, updated := v.now } := by
    rw [hstores]
    show w.stores.sessions.find? _ = _
    rw [hpage.sessions_eq]
    refine (Sessions.find?_update_none _ _ _ _).trans (if_pos ?_)
    rw [hsame, htokenOf, hissued]
    rfl
  rcases h.find?_handle hfind with ⟨hbefore, -⟩ | ⟨hlogsIn, -⟩
  · -- a token that is still to be made up has no session
    exact absurd (hbefore.symm.trans h.stores.find?_next) (by simp)
  · exact hlogsIn

/-! ## Whole runs -/

/-- A site with the controllers that every site has, whose sessions last for some hours, and which
has neither sessions nor accounts yet. -/
structure Fresh (site : Site) (hours : Int) (tokenOf : Nat → Text) : Prop where
  /-- The controllers are those that every site has. -/
  builtin : Site.builtin = .ok site.registry
  /-- No session has started. -/
  sessions : Sessions.ofHours hours tokenOf = .ok site.stores.sessions
  /-- There is no account. -/
  directory : site.stores.directory = []
  /-- Both stores can be reached. -/
  reached : site.stores.Reached

variable {hours : Int} {tokenOf : Nat → Text}

/-- Such a site is sound if no two tokens are equal. -/
theorem Fresh.sound (h : site.Fresh hours tokenOf) (htokenOf : Function.Injective tokenOf) :
    site.Sound where
  builtin := h.builtin
  reached := h.reached
  stores := by
    refine Stores.sound_of_empty ?_ (Sessions.find?_of_ofHours h.sessions) h.directory
    rw [(Sessions.eq_of_ofHours h.sessions).2]
    exact htokenOf

/-- A site stays sound over a whole run. -/
theorem Sound.meeting (h : site.Sound) (arrivals : Nat → Arrival) (n : Nat) :
    (site.meeting arrivals n).Sound := by
  induction n with
  | zero => exact h
  | succ n ih => exact ih.handle (arrivals n)

/-- For how long sessions last, and which tokens they get, stays over a whole run. -/
theorem Sound.meeting_sessions_frame (h : site.Sound) (arrivals : Nat → Arrival) (n : Nat) :
    (site.meeting arrivals n).stores.sessions.length = site.stores.sessions.length ∧
      (site.meeting arrivals n).stores.sessions.tokenOf = site.stores.sessions.tokenOf := by
  induction n with
  | zero => exact ⟨rfl, rfl⟩
  | succ n ih =>
      obtain ⟨hlength, htokenOf⟩ := (h.meeting arrivals n).handle_sessions_frame (arrivals n)
      exact ⟨hlength.trans ih.1, htokenOf.trans ih.2⟩

/-- An earlier request of a run logged in to an account, and no request that came with its token
has logged out since. -/
structure Backed (site : Site) (arrivals : Nat → Arrival) (n : Nat) (token : Text)
    (session : Session) (j : Nat) : Prop where
  /-- The request is earlier. -/
  earlier : j < n
  /-- It logged in. -/
  logsIn : (site.meeting arrivals j).LogsIn (arrivals j) token session.userId
  /-- The session goes back to it. -/
  updated : session.updated = (arrivals j).now
  /-- Nobody has logged out. -/
  lasting : ∀ m, j < m → m < n → (arrivals m).Presents token →
    ¬ (site.meeting arrivals m).LogsOut (arrivals m)

/-- **Every session of a run goes back to a request that logged in.** -/
theorem Sound.exists_backed (h : site.Sound)
    (hempty : ∀ token, site.stores.sessions.find? token = none) (arrivals : Nat → Arrival)
    (n : Nat) {token : Text} {session : Session}
    (hfind : (site.meeting arrivals n).stores.sessions.find? token = some session) :
    ∃ j, site.Backed arrivals n token session j := by
  -- the session is as old as the request that made it, so it is followed back unchanged
  induction n with
  | zero =>
      rw [Site.meeting, hempty] at hfind
      contradiction
  | succ n ih =>
      rcases (h.meeting arrivals n).find?_handle hfind with ⟨hbefore, hkept⟩ | ⟨hlogsIn, hnow⟩
      · obtain ⟨j, hearlier, hlogsIn, hupdated, hlasting⟩ := ih hbefore
        refine ⟨j, Nat.lt_succ_of_lt hearlier, hlogsIn, hupdated, fun m hjm hmn => ?_⟩
        rcases Nat.lt_succ_iff_lt_or_eq.mp hmn with hlt | rfl
        · exact hlasting m hjm hlt
        · exact hkept
      · exact ⟨n, Nat.lt_succ_self n, hlogsIn, hnow, fun m hnm hmn => by omega⟩

/-- A user that is logged in when a request is served comes with the token of a session that
lasts. -/
theorem Sound.exists_session_of_userOf? (h : site.Sound) {user : User}
    (huser : site.userOf? arrival = some user) (hlogged : user.isLoggedIn = true) :
    ∃ token session, arrival.Presents token ∧ site.stores.sessions.find? token = some session ∧
      arrival.now - session.updated ≤ site.stores.sessions.length ∧ session.userId = user.id := by
  unfold userOf? at huser
  rcases h.handle_cases arrival with
    ⟨hentered, -⟩ | ⟨controller, route, v, w, -, hentered, -, hrecognition, -⟩
  · rw [hentered] at huser
    contradiction
  · rw [hentered, Option.map_some] at huser
    obtain rfl := Option.some.inj huser
    cases hsession : v.session with
    | none =>
        simp only [hrecognition.unknown hsession] at hlogged
        exact absurd hlogged (by decide)
    | some token =>
        obtain ⟨-, hpresents, session, hfind, hlasts, hid⟩ := hrecognition.known token hsession
        exact ⟨token, session, hpresents, hfind, hlasts, hid⟩

/-- A user that is logged in when a request has been served was so before, or has just sent the
right password. -/
theorem Sound.logsIn_of_answered? (h : site.Sound) {w : Visit}
    (hanswered : site.answered? arrival = some w) (hlogged : w.user.isLoggedIn = true) :
    site.userOf? arrival = some w.user ∨ ∃ token, site.LogsIn arrival token w.user.id := by
  rcases h.handle_cases arrival with ⟨hentered, -⟩ |
    ⟨controller, route, v, w', views, hentered, hanswered', hrecognition, hserved, hstores⟩
  · rw [answered?, hentered] at hanswered
    contradiction
  · obtain rfl := Option.some.inj (hanswered'.symm.trans hanswered)
    have huser : site.userOf? arrival = some v.user := by
      rw [userOf?, hentered, Option.map_some]
    cases hserved with
    | page hpage =>
        rw [hpage.user_eq]
        exact Or.inl huser
    | registered user directory hfree hcreated hpage =>
        rw [hpage.user_eq]
        exact Or.inl huser
    | loggedOut hpage =>
        rw [hpage.user_eq] at hlogged
        change User.guest.isLoggedIn = true at hlogged
        exact absurd hlogged (by decide)
    | loggedIn user hguest hfound hverified hpage =>
        have hlogsIn := h.logsIn_of_loggedInAs hrecognition
          (hrecognition.session_eq_none hguest) hpage hstores
        rw [hpage.user_eq]
        exact Or.inr ⟨_, hlogsIn⟩

/-- **Nobody is logged in without a password that was verified.** Over any run of a fresh site
whose tokens are all different:

* a user that is logged in when a request is served comes with a token that an earlier request
  got by logging in to the account with the right password; no request between the two that came
  with the token has logged out, and the session has not lasted for longer than it may;
* a user that is logged in only afterwards has just sent the right password;
* a token that was never made up has a session at no time. -/
theorem isLoggedIn_of_run {hours : Int} {tokenOf : Nat → Text} {site : Site}
    (hfresh : site.Fresh hours tokenOf) (hinjective : Function.Injective tokenOf)
    (arrivals : Nat → Arrival) :
    (∀ k user, (site.meeting arrivals k).userOf? (arrivals k) = some user →
      user.isLoggedIn = true →
      ∃ token, (arrivals k).Presents token ∧
        ∃ j < k, (site.meeting arrivals j).LogsIn (arrivals j) token user.id ∧
          (∀ m, j < m → m < k → (arrivals m).Presents token →
            ¬ (site.meeting arrivals m).LogsOut (arrivals m)) ∧
          (arrivals k).now - (arrivals j).now ≤ hours * Sessions.millisecondsPerHour) ∧
    (∀ k visit, (site.meeting arrivals k).answered? (arrivals k) = some visit →
      visit.user.isLoggedIn = true →
      (site.meeting arrivals k).userOf? (arrivals k) = some visit.user ∨
        ∃ token, (site.meeting arrivals k).LogsIn (arrivals k) token visit.user.id) ∧
    (∀ token, (∀ i, token ≠ tokenOf i) →
      ∀ k, (site.meeting arrivals k).stores.sessions.find? token = none) := by
  have hsound := hfresh.sound hinjective
  have hempty := Sessions.find?_of_ofHours hfresh.sessions
  obtain ⟨hlength, htokenOf⟩ := Sessions.eq_of_ofHours hfresh.sessions
  refine ⟨?_, ?_, ?_⟩
  · intro k user huser hlogged
    obtain ⟨token, session, hpresents, hfind, hlasts, hid⟩ :=
      (hsound.meeting arrivals k).exists_session_of_userOf? huser hlogged
    obtain ⟨j, hj, hlogsIn, hupdated, hlasting⟩ := hsound.exists_backed hempty arrivals k hfind
    rw [hid] at hlogsIn
    rw [hupdated, (hsound.meeting_sessions_frame arrivals k).1, hlength] at hlasts
    exact ⟨token, hpresents, j, hj, hlogsIn, hlasting, hlasts⟩
  · intro k visit hanswered hlogged
    exact (hsound.meeting arrivals k).logsIn_of_answered? hanswered hlogged
  · intro token hforeign k
    cases hfind : (site.meeting arrivals k).stores.sessions.find? token with
    | none => rfl
    | some session =>
        obtain ⟨i, -, heq⟩ := (hsound.meeting arrivals k).stores.issued token session hfind
        rw [(hsound.meeting_sessions_frame arrivals k).2, htokenOf] at heq
        exact absurd heq (hforeign i)

/-! ## A run in which somebody registers, logs in, and comes back -/

/-- The tokens of the run: more and more letters. -/
def sampleTokens (n : Nat) : Text := List.replicate (n + 1) 'a'

/-- A fresh site with empty templates, whose sessions last for an hour. -/
def sample : Site where
  settings := {}
  router := .ofRoot "/" []
  registry :=
    [(("auth" : Text), ⟨["login", "logout", "register"], Auth.controller⟩),
      (("index" : Text), ⟨[], Controller.index⟩)]
  compress := fun _ _ => none
  stores :=
    { views :=
        { disk :=
            { entries :=
                ([["auth", "register.html"], ["auth", "login.html"],
                  ["common", "info_message.html"], ["index.html"]] : List (List String)).map
                    fun path => (path.map String.toList, .file [] 0) }
          recent := { capacity := 1 }
          maxAge := 0 }
      sessions :=
        { length := 1 * Sessions.millisecondsPerHour
          tokenOf := sampleTokens } }

/-- A form that is sent to an address, with the token of a session if there is one. -/
def sampleForm (target : Text) (form cookies : Table Text) : Request :=
  { method := .post, target, userAgent := [], encodings := [], query := [], form, cookies,
    contentLength := 0 }

/-- Somebody registers, logs in a second later, and comes back with the token of the session. -/
def sampleRun : Nat → Arrival
  | 0 =>
    { request := sampleForm "/auth/register"
        [("email", "a@b.cd"), ("password", "Secret-12"), ("submit", "1"),
          ("verify_password", "Secret-12")] []
      now := 0 }
  | 1 =>
    { request := sampleForm "/auth/login"
        [("email", "a@b.cd"), ("password", "Secret-12"), ("submit", "1")] []
      now := 1000 }
  | _ => { request := sampleForm "/" [] [("SESSION_ID", "a")], now := 2000 }

/-- The site of the run is fresh. -/
theorem fresh_sample : sample.Fresh 1 sampleTokens where
  builtin := rfl
  sessions := rfl
  directory := rfl
  reached := ⟨rfl, rfl⟩

/-- Its tokens are all different. -/
theorem injective_sampleTokens : Function.Injective sampleTokens := by
  intro m n h
  have hlength := congrArg List.length h
  simpa [sampleTokens] using hlength

/-- In the third request of the run the user is logged in, by a token from an earlier one. -/
theorem isLoggedIn_of_run_sample :
    (sample.meeting sampleRun 2).userOf? (sampleRun 2) =
        some { id := 1, email := "a@b.cd", role := "user", loggedIn := true } ∧
      ∃ token, (sampleRun 2).Presents token ∧
        ∃ j < 2, (sample.meeting sampleRun j).LogsIn (sampleRun j) token 1 := by
  have huser : (sample.meeting sampleRun 2).userOf? (sampleRun 2) =
      some { id := 1, email := "a@b.cd", role := "user", loggedIn := true } := by
    decide +kernel
  obtain ⟨token, hpresents, j, hj, hlogsIn, -⟩ :=
    (isLoggedIn_of_run fresh_sample injective_sampleTokens sampleRun).1 2 _ huser rfl
  exact ⟨huser, token, hpresents, j, hj, hlogsIn⟩

end Site
end PageServer
