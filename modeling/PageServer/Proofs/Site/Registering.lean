/-
# Who registers can log in

An account that was made has an address that keeps the rules of both forms, in
letters of either case. It stays as it is, so its owner can log in at any later
time, and the session that starts lasts for as long as it may if nobody else
comes with its token.

* `Site.Ready.keeps_of_makes`: the address of an account that is made
* `Site.AsksToLogIn`: a request that sends the form to log in
* `Site.Sound.logsIn`: it logs in to the account
* `Site.Sound.find?_meeting`: a session goes on over a run
* `Site.logsIn_of_registered`: who registers can log in, and is known afterwards
-/
import PageServer.Proofs.Accounts.History
import PageServer.Proofs.Pattern.Letters
import PageServer.Proofs.Site.Answering

namespace PageServer

/-! ## One visit -/

namespace Visit

variable {v : Visit} {ended : Except Halt Outcome × Visit}

/-- Accounts change only for who sends the form to register, with fields that keep their rules. -/
theorem Course.sends_of_directory_ne (h : v.Course v.change ended)
    (hmore : ended.2.stores.directory ≠ v.stores.directory) :
    v.sends v.registerFields = true := by
  cases h with
  | broken hviews hended hpage => exact absurd hpage.directory_eq hmore
  | shown hchange hended hpage => exact absurd hpage.directory_eq hmore
  | full hchange hended hpage => exact absurd hpage.directory_eq hmore
  | @changed v' w title message link hchange hpage hended =>
      have hafter := hpage.trans (Visiting.makesPage_successPage title message link w)
      rw [hended, hafter.directory_eq] at hmore
      rcases Auth.change_cases (change_eq_some hchange) with ⟨-, hlogin⟩ | hregister | rfl
      · obtain ⟨-, user, -, rfl⟩ := Auth.loginChange_eq_some_iff.mp hlogin
        exact absurd rfl hmore
      · exact (Auth.registerChange_eq_ok_some_iff.mp hregister).1
      · exact absurd rfl hmore

/-- Who sends the form to register has sent an address that keeps its rules. -/
theorem keeps_of_sends (h : v.sends v.registerFields = true) :
    Rule.isEmail.keeps v.email = true ∧ Rule.required.keeps v.email = true := by
  rw [sends, registerFields, Bool.and_eq_true, List.all_cons, Bool.and_eq_true,
    (Form.Entry.isKept_ofRules v.email).2, Bool.and_eq_true] at h
  exact ⟨h.2.1.2, h.2.1.1⟩

/-- Who sends the form to log in with such an address has filled it in. -/
theorem sends_loginFields (hsubmitted : v.request.submitted = true)
    (hemail : Rule.isEmail.keeps v.email = true) (hrequired : Rule.required.keeps v.email = true) :
    v.sends v.loginFields = true := by
  rw [sends, loginFields, hsubmitted, List.all_cons, (Form.Entry.isKept_ofRules v.email).1,
    hemail, hrequired]
  rfl

/-- Nobody is denied the form to log in, and with the right password it logs in. -/
theorem change_of_login (hcontroller : v.route.controller = some ("auth" : Text))
    (hmodule : v.route.module = some ("login" : Text)) (hguest : v.user.isLoggedIn = false)
    (hsends : v.sends v.loginFields = true) {user : User} (hcredited : v.credited? = some user) :
    v.change = .ok (some (v.loggedInAs user)) := by
  have hdenies : Auth.denies v = false := by
    rw [Auth.denies, hguest, Bool.false_and]
  have hlogin : Auth.loginChange v = some (v.loggedInAs user) :=
    Auth.loginChange_eq_some_iff.mpr ⟨hsends, user, hcredited, rfl⟩
  rw [change, if_pos hcontroller, Auth.change, hdenies, if_neg Bool.false_ne_true, hmodule]
  dsimp only
  rw [if_pos rfl, hlogin]

/-- What is asked for is done, and a page says so, unless the views are at fault. -/
theorem Course.shows_of_change (h : v.Course v.change ended) {v' : Visit}
    (hchange : v.change = .ok (some v'))
    (hrenders : ∀ fault, ended.1 = .error (.fault fault) → ¬ fault.IsOfViews) :
    v'.OnlyPage ended.2 ∧ ∃ html, ended.1 = .ok (.page Status.ok.code html) := by
  cases h with
  | broken hviews hended hpage => exact absurd hviews (hrenders _ hended)
  | shown hnone hended hpage =>
      rw [hchange] at hnone
      exact absurd (Except.ok.inj hnone) nofun
  | full hfull hended hpage =>
      rw [hchange] at hfull
      contradiction
  | @changed done w title message link hdone hpage hended =>
      rw [hchange] at hdone
      obtain rfl := Option.some.inj (Except.ok.inj hdone)
      refine ⟨?_, ?_⟩
      · rw [hended]
        exact hpage.trans (Visiting.makesPage_successPage title message link w)
      · rcases Visiting.showsPage_successPage title message link w with
          ⟨html, hhtml⟩ | ⟨fault, hfault, hviews⟩
        · rw [hended]
          exact ⟨html, hhtml⟩
        · rw [← hended] at hfault
          exact absurd hviews (hrenders fault hfault)

end Visit

/-- An account can be logged in to: it is one of the accounts, which are in order, and its address
has no blanks around it and keeps the rules of the form. -/
structure Directory.Admits (directory : Directory) (account : Account) : Prop where
  /-- The accounts are in order. -/
  orderly : directory.Orderly
  /-- The account is one of them. -/
  mem : account ∈ directory
  /-- There are no blanks around its address. -/
  trimmed : Text.trim account.user.email = account.user.email
  /-- It is an address for mail. -/
  isEmail : Rule.isEmail.keeps account.user.email = true
  /-- It says something. -/
  required : Rule.required.keeps account.user.email = true

namespace Site

variable {site : Site} {arrival : Arrival}

/-! ## Registering -/

/-- A request that makes an account has sent an address that keeps its rules. -/
theorem Ready.keeps_of_makes (h : site.Ready) {account : Account}
    (hmakes : site.Makes arrival account) :
    Rule.isEmail.keeps arrival.email = true ∧ Rule.required.keeps arrival.email = true := by
  have hmore : (site.handle arrival.request arrival.now).2.stores.directory ≠
      site.stores.directory := by
    rw [hmakes.directory_eq]
    simp
  cases hentered : site.entered arrival with
  | none =>
      obtain ⟨views, hstores⟩ := handle_of_entered_none hentered
      rw [hstores] at hmore
      exact absurd rfl hmore
  | some entered =>
      obtain ⟨controller, v⟩ := entered
      obtain ⟨hcourse, route, hv⟩ := h.course hentered
      obtain ⟨views, hstores⟩ := handle_of_entered h.reached hentered
      obtain ⟨sessions, user, session, hframe⟩ :=
        (site.visit arrival.request route arrival.now).recognized_frame
      rw [hframe] at hv
      have hsame : v.stores.directory = site.stores.directory := by rw [hv]; rfl
      have hemail : v.email = arrival.email := by rw [hv]; rfl
      rw [hstores, ← hsame] at hmore
      rw [← hemail]
      exact Visit.keeps_of_sends (hcourse.sends_of_directory_ne hmore)

/-! ## Logging in -/

/-- A request sends the form to log in with an address, in letters of either case and with blanks
around it, and with a password; it comes with the token of no session that lasts. -/
structure AsksToLogIn (site : Site) (arrival : Arrival) (email password : Text) : Prop where
  /-- Its method is served. -/
  served : arrival.request.method ∈ Response.served
  /-- It sends a form. -/
  submitted : arrival.request.submitted = true
  /-- Its address leads to the form to log in. -/
  routed : ∃ route, site.router.route arrival.request.target = .ok route ∧
    route.controller = some ("auth" : Text) ∧ route.module = some ("login" : Text)
  /-- It comes with no session that lasts. -/
  unknown : ∀ token, arrival.Presents token →
    (site.stores.sessions.current token arrival.now).1 = none
  /-- It sends the address for mail. -/
  email : ∃ before variant behind,
    arrival.request.inputOr "email" "" = before ++ variant ++ behind ∧
      (∀ c ∈ before, Text.isBlank c) ∧ (∀ c ∈ behind, Text.isBlank c) ∧
      Text.sameLetters variant email = true
  /-- It sends the password. -/
  password : arrival.request.inputOr "password" "" = password

/-- The templates that a request needs can be used. -/
def Renders (site : Site) (arrival : Arrival) : Prop :=
  ∀ fault, (site.outcome arrival.request arrival.now).1 = .error (.fault fault) →
    ¬ fault.IsOfViews

/-- A request to log in enters the controller of accounts. -/
theorem AsksToLogIn.entered {email password : Text} (h : site.AsksToLogIn arrival email password)
    (hready : site.Ready) :
    ∃ route : Route, route.controller = some ("auth" : Text) ∧
      route.module = some ("login" : Text) ∧
      site.entered arrival =
        some (Auth.controller, (site.visit arrival.request route arrival.now).recognized) := by
  obtain ⟨route, hroute, hcontroller, hmodule⟩ := h.routed
  have hregistry : ([(("auth" : Text), ⟨["login", "logout", "register"], Auth.controller⟩),
      (("index" : Text), ⟨[], Controller.index⟩)] : Registry Controller) = site.registry :=
    Except.ok.inj hready.builtin
  have hvalid : site.registry.controllerOf (site.registry.validate route) =
      .ok Auth.controller := by
    rw [← hregistry]
    simp only [Registry.controllerOf, Registry.validate, Registry.accepts, hcontroller, hmodule]
    rfl
  have hrun := Visit.run_recognize
    (v := site.visit arrival.request (site.registry.validate route) arrival.now) hready.reached
  refine ⟨site.registry.validate route, hcontroller, hmodule, ?_⟩
  unfold Site.entered
  rw [if_pos h.served, hroute]
  dsimp only
  rw [hvalid, hrun]

/-- A request to log in comes from nobody who is known. -/
theorem AsksToLogIn.session_eq_none {email password : Text}
    (h : site.AsksToLogIn arrival email password) {route : Route} {v : Visit}
    (hrecognition : (site.visit arrival.request route arrival.now).Recognition v) :
    v.session = none := by
  cases hsession : v.session with
  | none => rfl
  | some token =>
      obtain ⟨-, hpresents, session, hfind, hlasts, -⟩ := hrecognition.known token hsession
      have howner := Sessions.current_eq_some_iff.mpr ⟨session, hfind, hlasts, rfl⟩
      have hnone := h.unknown token hpresents
      exact absurd (howner.symm.trans hnone) (by simp)

/-- A request to log in sends an address with the letters of the account. -/
theorem AsksToLogIn.sameLetters {email password : Text}
    (h : site.AsksToLogIn arrival email password) (htrim : Text.trim email = email) :
    Text.sameLetters arrival.email email = true := by
  obtain ⟨before, variant, behind, hsent, hbefore, hbehind, hsame⟩ := h.email
  rw [Arrival.email, hsent, ← htrim]
  exact Text.sameLetters_trim hsame hbefore hbehind

-- A request to log in to an account asks for this alone. -/
theorem AsksToLogIn.change_eq {account : Account}
    (h : site.AsksToLogIn arrival account.user.email account.password)
    (hadmits : site.stores.directory.Admits account) {route : Route} {v : Visit}
    (hcontroller : route.controller = some ("auth" : Text))
    (hmodule : route.module = some ("login" : Text))
    (hrecognition : (site.visit arrival.request route arrival.now).Recognition v) :
    v.change = .ok (some (v.loggedInAs account.user)) := by
  have hguest := hrecognition.unknown (h.session_eq_none hrecognition)
  obtain ⟨sessions, user, session, hframe, -⟩ := hrecognition.frame
  have hsent : v.email = arrival.email := by rw [hframe]; rfl
  have hsecret : v.password = account.password := by
    rw [← h.password, hframe]
    rfl
  have hsame := h.sameLetters hadmits.trimmed
  have hkept := Rule.keeps_of_sameLetters hsame
  have hfound : v.credited? = some account.user := by
    have hdirectory : v.stores.directory = site.stores.directory := by rw [hframe]; rfl
    rw [Text.sameLetters_comm] at hsame
    rw [Auth.credited?_eq_some_iff, hdirectory, hsent, hsecret]
    exact ⟨hadmits.orderly.findByEmail_eq hadmits.mem hsame, Directory.verify_of_mem hadmits.mem⟩
  have hsends : v.sends v.loginFields = true := by
    apply Visit.sends_loginFields
    · rw [hframe]
      exact h.submitted
    · rw [hsent, hkept.1, hadmits.isEmail]
    · rw [hsent, hkept.2, hadmits.required]
  apply Visit.change_of_login _ _ _ hsends hfound
  · rw [hframe]
    exact hcontroller
  · rw [hframe]
    exact hmodule
  · rw [hguest]
    rfl

/-- **Who asks to log in to an account is logged in to it**, and gets the token of the session. -/
theorem Sound.logsIn (h : site.Sound) {account : Account}
    (hadmits : site.stores.directory.Admits account)
    (hasks : site.AsksToLogIn arrival account.user.email account.password)
    (hrenders : site.Renders arrival) :
    let token := site.stores.sessions.tokenOf site.stores.sessions.issued
    site.LogsIn arrival token account.user.id ∧
      (∃ visit, site.answered? arrival = some visit ∧
        visit.user = { account.user with loggedIn := true }) ∧
      ∃ response, (site.handle arrival.request arrival.now).1 = .ok response ∧
        response.status = .ok ∧
        response.cookies =
          [Visiting.tokenCookie token (site.settings.sessionHours * 3600)] := by
  intro token
  have hready : site.Ready := ⟨h.builtin, h.reached⟩
  obtain ⟨route, hcontroller, hmodule, hentered⟩ := hasks.entered hready
  have hrecognition : (site.visit arrival.request route arrival.now).Recognition
      (site.visit arrival.request route arrival.now).recognized :=
    Visit.recognition h.stores rfl rfl
  generalize (site.visit arrival.request route arrival.now).recognized = v at *
  have hnone := hasks.session_eq_none hrecognition
  have hchange := hasks.change_eq hadmits hcontroller hmodule hrecognition
  -- what the visit asks for is done, and its page is made
  obtain ⟨hserved, houtcome, -⟩ := outcome_of_entered h.reached hentered
  have hviews : ∀ fault, (Action.run Auth.controller.serve v).1 = .error (.fault fault) →
      ¬ fault.IsOfViews := by
    intro fault hfault
    apply hrenders fault
    rw [houtcome, hfault]
    rfl
  obtain ⟨hpage, html, hhtml⟩ := (hready.course hentered).1.shows_of_change hchange hviews
  obtain ⟨views, hstores⟩ := handle_of_entered h.reached hentered
  refine ⟨h.logsIn_of_loggedInAs hrecognition hnone hpage hstores,
    ⟨(Action.run Auth.controller.serve v).2, ?_, ?_⟩, ?_⟩
  · rw [answered?, hentered, Option.map_some]
  · exact hpage.user_eq
  · have hhandle := handle_of_shown h.reached hentered hhtml
    refine ⟨_, congrArg Prod.fst hhandle, (Response.ofHtml_frame _ _ _ _).1, ?_⟩
    obtain ⟨sessions, user, session, hframe, -, htokenOf, hissued⟩ := hrecognition.frame
    rw [Visit.loggedInAs_of_session_eq_none hnone] at hpage
    show (Action.run Auth.controller.serve v).2.cookies = _
    rw [hpage.cookies_eq, hframe]
    show [Visiting.tokenCookie (sessions.tokenOf sessions.issued) _] = _
    rw [htokenOf, hissued]
    rfl

/-! ## Coming back -/

/-- A session is still there when it is known who makes a request, if this comes without its
token. -/
theorem find?_recognized (route : Route) {token : Text} {session : Session}
    (hfind : site.stores.sessions.find? token = some session)
    (hother : ¬ arrival.Presents token) :
    (site.visit arrival.request route arrival.now).recognized.stores.sessions.find? token =
      some session := by
  cases hcookie : arrival.request.cookie? Visiting.sessionCookie with
  | none =>
      rw [Visit.recognized_of_cookie_eq_none
        (v := site.visit arrival.request route arrival.now) hcookie]
      exact hfind
  | some own =>
      rw [Visit.sessions_recognized
        (v := site.visit arrival.request route arrival.now) hcookie]
      apply (Sessions.find?_current _ _ _ _ _).mpr
      refine ⟨hfind, ?_⟩
      rintro ⟨rfl, -⟩
      exact hother hcookie

/-- A session goes on while others make requests. -/
theorem Sound.find?_of_not_presents (h : site.Sound) {token : Text} {session : Session}
    (hfind : site.stores.sessions.find? token = some session)
    (hother : ¬ arrival.Presents token) :
    (site.handle arrival.request arrival.now).2.stores.sessions.find? token = some session := by
  have hready : site.Ready := ⟨h.builtin, h.reached⟩
  rcases hready.stores_handle arrival with
    ⟨views, hstores⟩ | ⟨route, v, w, views, hv, hserved, hstores⟩
  · rw [hstores]
    exact hfind
  · have hrecognition : (site.visit arrival.request route arrival.now).Recognition v := by
      rw [hv]
      exact Visit.recognition h.stores rfl rfl
    have hknown : v.stores.sessions.find? token = some session := by
      rw [hv]
      exact find?_recognized route hfind hother
    rw [hstores]
    show w.stores.sessions.find? token = some session
    cases hserved with
    | page hpage =>
        rw [hpage.sessions_eq]
        exact hknown
    | registered user directory hfree hcreated hpage =>
        rw [hpage.sessions_eq]
        exact hknown
    | loggedIn user hguest hfound hverified hpage =>
        -- the new session has a token that had none
        rw [Visit.loggedInAs_of_session_eq_none (hrecognition.session_eq_none hguest)] at hpage
        rw [hpage.sessions_eq]
        refine (Sessions.find?_update_none _ _ _ _).trans ?_
        rw [if_neg]
        · exact hknown
        · intro hnext
          rw [hnext, hrecognition.sound.find?_next] at hknown
          contradiction
    | loggedOut hpage =>
        rw [hpage.sessions_eq]
        cases hsession : v.session with
        | none =>
            simp only [Visit.loggedOut, hsession]
            exact hknown
        | some own =>
            simp only [Visit.loggedOut, hsession]
            refine (Sessions.find?_remove _ _ _).trans ?_
            rw [if_neg]
            · exact hknown
            · rintro rfl
              exact hother (hrecognition.known token hsession).2.1

/-- A session goes on over a run in which nobody comes with its token. -/
theorem Sound.find?_meeting (h : site.Sound) (arrivals : Nat → Arrival) {n m : Nat} (hnm : n ≤ m)
    {token : Text} {session : Session}
    (hfind : (site.meeting arrivals n).stores.sessions.find? token = some session)
    (hothers : ∀ i, n ≤ i → i < m → ¬ (arrivals i).Presents token) :
    (site.meeting arrivals m).stores.sessions.find? token = some session := by
  induction m, hnm using Nat.le_induction with
  | base => exact hfind
  | succ m hnm ih =>
      have hbefore := ih fun i hi him => hothers i hi (Nat.lt_succ_of_lt him)
      exact (h.meeting arrivals m).find?_of_not_presents hbefore
        (hothers m hnm (Nat.lt_succ_self m))

/-- A request with the token of a session that lasts is served as the owner of the account. -/
theorem Sound.userOf?_eq (h : site.Sound) (horderly : site.stores.directory.Orderly)
    {account : Account} (hmem : account ∈ site.stores.directory) {token : Text} {since : Int}
    (hpresents : arrival.Presents token)
    (hfind : site.stores.sessions.find? token = some ⟨account.user.id, since⟩)
    (hlasts : arrival.now - since ≤ site.stores.sessions.length) {user : User}
    (huser : site.userOf? arrival = some user) :
    user = { account.user with loggedIn := true } := by
  unfold userOf? at huser
  obtain ⟨⟨controller, v⟩, hentered, rfl⟩ := Option.map_eq_some_iff.mp huser
  obtain ⟨-, -, -, route, rfl⟩ := outcome_of_entered h.reached hentered
  have howner : site.stores.directory.findById account.user.id = some account.user :=
    horderly.findById_eq hmem
  rw [Visit.recognized_of_lasting (v := site.visit arrival.request route arrival.now)
    hpresents hfind hlasts howner]

/-! ## Whole runs -/

/-- An account that was made can be logged in to at any later time. -/
theorem Fresh.admits {hours : Int} {tokenOf : Nat → Text} (hfresh : site.Fresh hours tokenOf)
    (arrivals : Nat → Arrival) {k n : Nat} (hkn : k < n) {account : Account}
    (hmakes : (site.meeting arrivals k).Makes (arrivals k) account) :
    (site.accounts arrivals n).Admits account := by
  have hready : site.Ready := ⟨hfresh.builtin, hfresh.reached⟩
  have hstart : site.stores.directory.Orderly := by
    rw [hfresh.directory]
    exact Directory.orderly_nil
  obtain ⟨hemail, hrequired⟩ := (hready.meeting arrivals k).keeps_of_makes hmakes
  have hafter : account ∈ site.accounts arrivals (k + 1) := by
    show account ∈ (site.meeting arrivals (k + 1)).stores.directory
    rw [meeting, hmakes.directory_eq]
    exact List.mem_append_right _ (List.mem_singleton_self account)
  have hsent : account.user.email = (arrivals k).email := by rw [hmakes.account_eq]; rfl
  rw [← hsent] at hemail hrequired
  refine ⟨hready.orderly_accounts hstart arrivals n,
    (hready.accounts_prefix arrivals hkn).subset hafter, ?_, hemail, hrequired⟩
  rw [hsent]
  exact Text.trimBy_trimBy Text.isBlank _

/-- **Who registers can log in.** Over any run of a fresh site whose tokens are all different, let
one request make an account, and let a later one ask to log in with the address, in letters of
either case and with blanks around it, and with the password that were sent then. If the templates
that it needs can be used,

* it logs in to this account: the session that starts has a token that was made up for it, and the
  visit ends as that of the owner;
* the response has the status for a request that has been answered, and sets the token as its only
  cookie;
* while the session lasts, the next request that comes with this token is served as the owner. -/
theorem logsIn_of_registered {hours : Int} {tokenOf : Nat → Text}
    (hfresh : site.Fresh hours tokenOf) (hinjective : Function.Injective tokenOf)
    (arrivals : Nat → Arrival) {k n : Nat} (hkn : k < n) {account : Account}
    (hmakes : (site.meeting arrivals k).Makes (arrivals k) account)
    (hasks : (site.meeting arrivals n).AsksToLogIn (arrivals n) (arrivals k).email
      (arrivals k).password)
    (hrenders : (site.meeting arrivals n).Renders (arrivals n)) :
    ∃ token,
      ((site.meeting arrivals n).LogsIn (arrivals n) token account.user.id ∧
        ∃ visit, (site.meeting arrivals n).answered? (arrivals n) = some visit ∧
          visit.user = { account.user with loggedIn := true }) ∧
      (∃ response, ((site.meeting arrivals n).handle (arrivals n).request
          (arrivals n).now).1 = .ok response ∧
        response.status = .ok ∧
        response.cookies = [Visiting.tokenCookie token
          ((site.meeting arrivals n).settings.sessionHours * 3600)]) ∧
      ∀ m user, n < m → (arrivals m).Presents token →
        (∀ i, n < i → i < m → ¬ (arrivals i).Presents token) →
        (arrivals m).now - (arrivals n).now ≤ hours * Sessions.millisecondsPerHour →
        (site.meeting arrivals m).userOf? (arrivals m) = some user →
        user = { account.user with loggedIn := true } := by
  have hsound := hfresh.sound hinjective
  have haccount : (arrivals k).email = account.user.email ∧
      (arrivals k).password = account.password := by
    rw [hmakes.account_eq]
    exact ⟨rfl, rfl⟩
  rw [haccount.1, haccount.2] at hasks
  obtain ⟨hlogsIn, hanswered, hresponse⟩ :=
    (hsound.meeting arrivals n).logsIn (hfresh.admits arrivals hkn hmakes) hasks hrenders
  refine ⟨_, ⟨hlogsIn, hanswered⟩, hresponse, ?_⟩
  intro m user hnm hpresents hothers hlasts huser
  have hfind := hsound.find?_meeting arrivals (n := n + 1) hnm hlogsIn.started
    fun i hi him => hothers i hi him
  have hadmits := hfresh.admits arrivals (hkn.trans hnm) hmakes
  refine (hsound.meeting arrivals m).userOf?_eq hadmits.orderly hadmits.mem hpresents hfind ?_
    huser
  rw [(hsound.meeting_sessions_frame arrivals m).1, (Sessions.eq_of_ofHours hfresh.sessions).1]
  exact hlasts

/-! ## A run in which somebody registers and logs in with other capitals -/

/-- Somebody registers; another one asks for the index page; the first one logs in, with capitals
and blanks that were not there before and with a token that has no session, and comes back. -/
def returningRun : Nat → Arrival
  | 0 => sampleRun 0
  | 1 => { request := sampleForm "/" [] [], now := 500 }
  | 2 =>
    { request := sampleForm "/auth/login"
        [("email", " A@b.CD\t"), ("password", "Secret-12"), ("submit", "1")]
        [("SESSION_ID", "stale")]
      now := 1000 }
  | _ => { request := sampleForm "/" [] [("SESSION_ID", "a")], now := 2000 }

/-- The account of the run. -/
def returningAccount : Account :=
  { user := { id := 1, email := "a@b.cd", role := "user" }, password := "Secret-12" }

/-- The third request of the run asks to log in with what the first one has sent. -/
theorem asksToLogIn_returningRun :
    (sample.meeting returningRun 2).AsksToLogIn (returningRun 2) (returningRun 0).email
      (returningRun 0).password where
  served := by decide
  submitted := by decide
  routed := ⟨.ofPath "auth/login", by decide +kernel, rfl, rfl⟩
  unknown := by
    intro token hpresents
    have hstale : (returningRun 2).request.cookie? Visiting.sessionCookie =
        some ("stale" : Text) := by
      decide
    obtain rfl := Option.some.inj (hstale.symm.trans hpresents)
    decide +kernel
  email := ⟨[' '], "A@b.CD", ['\t'], by decide, List.forall_mem_singleton.mpr rfl,
    List.forall_mem_singleton.mpr rfl, by decide⟩
  password := by decide

/-- It logs in to the account of the first one, and the fourth one is served as its owner. -/
theorem logsIn_of_registered_sample :
    ∃ token, (sample.meeting returningRun 2).LogsIn (returningRun 2) token 1 ∧
      (returningRun 3).Presents token ∧
      (sample.meeting returningRun 3).userOf? (returningRun 3) =
        some { returningAccount.user with loggedIn := true } := by
  have hmakes : (sample.meeting returningRun 0).Makes (returningRun 0) returningAccount := by
    refine ⟨?_, ?_, ?_⟩
    all_goals decide +kernel
  have hrenders : (sample.meeting returningRun 2).Renders (returningRun 2) := by
    have hpage : ((sample.meeting returningRun 2).outcome (returningRun 2).request
        (returningRun 2).now).1.isOk = true := by
      decide +kernel
    intro fault hfault
    rw [hfault] at hpage
    exact absurd hpage Bool.false_ne_true
  obtain ⟨token, ⟨hlogsIn, -⟩, -, hback⟩ := logsIn_of_registered fresh_sample
    injective_sampleTokens returningRun (by decide : 0 < 2) hmakes asksToLogIn_returningRun hrenders
  have hnext : (sample.meeting returningRun 2).stores.sessions.tokenOf
      (sample.meeting returningRun 2).stores.sessions.issued = "a" := by
    decide +kernel
  have hpresents : (returningRun 3).Presents token := by
    rw [hlogsIn.token_eq, hnext]
    rfl
  have hserved : ((sample.meeting returningRun 3).userOf? (returningRun 3)).isSome := by
    decide +kernel
  obtain ⟨user, huser⟩ := Option.isSome_iff_exists.mp hserved
  have howner := hback 3 user (by decide) hpresents (fun i hi him => by omega) (by decide) huser
  rw [howner] at huser
  exact ⟨token, hlogsIn, hpresents, huser⟩

end Site
end PageServer
