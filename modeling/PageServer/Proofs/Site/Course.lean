/-
# The course of a visit

While both stores can be reached, a visit takes one of few courses. What the
request asks for is done at once, and only then its page is made, so the page
may still fail. What is done follows from the visit alone: the right password
logs in, a form that keeps its rules makes an account, and logging out ends the
session.

* `Visit.Course`: how serving a visit ends, if this is to be done
* `Auth.change`: what a visit asks of the controller of accounts
* `Auth.course_serve`: the controller of accounts does it
* `Auth.change_cases`: the three ways in which something is done
* `Site.course_of_builtin`, `Site.served_of_builtin`: the controllers that every site has
-/
import PageServer.Proofs.Form.Checking
import PageServer.Proofs.Site.Ending
import PageServer.Proofs.Site.Serving

namespace PageServer

open PageServer.Action (FailsBy)

/-! ## Courses -/

namespace Visit

/-- How serving a visit ends, if its request asks for some change of the stores. -/
inductive Course (v : Visit) (change : Except Abort (Option Visit))
    (ended : Except Halt Outcome × Visit) : Prop
  /-- Nothing is done, since the views are at fault. -/
  | broken {fault : Fault} (hviews : fault.IsOfViews) (hended : ended.1 = .error (.fault fault))
      (hpage : v.OnlyPage ended.2)
  /-- There is nothing to be done, and a page is shown. -/
  | shown {html : Text} (hchange : change = .ok none)
      (hended : ended.1 = .ok (.page Status.ok.code html)) (hpage : v.OnlyPage ended.2)
  /-- What is asked for is done, and a page that says so is made. -/
  | changed {v' w : Visit} {title message : Text} {link : Option (Text × Text)}
      (hchange : change = .ok (some v')) (hpage : v'.OnlyPage w)
      (hended : ended = Action.run (Visiting.successPage title message link) w)
  /-- What is asked for can not be done, since no number is left. -/
  | full {abort : Abort} (hchange : change = .error abort)
      (hended : ended.1 = .error (.abort abort)) (hpage : v.OnlyPage ended.2)

namespace Course

variable {v w : Visit} {change : Except Abort (Option Visit)}

/-- A step that makes the page, and fails only by the views, comes first. -/
theorem after {α : Type} {step : Visiting α} {next : α → Visiting Outcome} (hpage : v.OnlyPage w)
    (hmakes : Visiting.MakesPage step) (hfails : FailsBy Halt.IsOfViews step)
    (hnext : ∀ a w, v.OnlyPage w → v.Course change (Action.run (next a) w)) :
    v.Course change (Action.run (step >>= next) w) := by
  have hafter := hpage.trans (hmakes w)
  rcases Action.after_bind step next w with ⟨halt, hhalt, hrun⟩ | ⟨a, -, hrun⟩
  · rw [hrun]
    have hviews := hfails w halt hhalt
    cases halt with
    | fault fault => exact .broken hviews rfl hafter
    | abort abort => exact absurd hviews id
  · rw [hrun]
    exact hnext a _ hafter

/-- Where there is nothing to be done, a page is shown unless the views are at fault. -/
theorem of_showsPage {step : Visiting Outcome} (hpage : v.OnlyPage w)
    (hmakes : Visiting.MakesPage step) (hshows : Visiting.ShowsPage step)
    (hchange : change = .ok none) : v.Course change (Action.run step w) := by
  have hafter := hpage.trans (hmakes w)
  rcases hshows w with ⟨html, hresult⟩ | ⟨fault, hresult, hviews⟩
  · exact .shown hchange hresult hafter
  · exact .broken hviews hresult hafter

/-- A visit ends with a page or by the views, unless what it asks for can not be done. -/
theorem isPage_or {ended : Except Halt Outcome × Visit} (h : v.Course change ended) :
    Visiting.IsPage ended.1 ∨
      ∃ abort, change = .error abort ∧ ended.1 = .error (.abort abort) := by
  cases h with
  | broken hviews hended hpage => exact Or.inl (Or.inr ⟨_, hended, hviews⟩)
  | shown hchange hended hpage => exact Or.inl (Or.inl ⟨_, hended⟩)
  | full hchange hended hpage => exact Or.inr ⟨_, hchange, hended⟩
  | changed hchange hpage hended =>
      rw [hended]
      exact Or.inl (Visiting.showsPage_successPage _ _ _ _)

end Course

/-- What follows a handler: its outcome, or else the page of the visit. -/
structure Continues (v : Visit) (next : Option Outcome → Visiting Outcome) : Prop where
  /-- An outcome ends the visit. -/
  some : ∀ outcome, next (some outcome) = pure outcome
  /-- Without an outcome the page is made. -/
  none : ∀ w, v.OnlyPage w → Action.run (next none) w = Action.run Visiting.render w

/-- An outcome that is a page ends the visit with this page. -/
theorem Continues.some_bind {v : Visit} {next : Option Outcome → Visiting Outcome}
    (h : v.Continues next) (step : Visiting Outcome) : (Option.some <$> step >>= next) = step := by
  rw [bind_map_left, funext h.some]
  exact bind_pure step

/-- Without an outcome a page is shown, where there is nothing to be done. -/
theorem Continues.course_none {v w : Visit} {next : Option Outcome → Visiting Outcome}
    (h : v.Continues next) (hpage : v.OnlyPage w) {change : Except Abort (Option Visit)}
    (hchange : change = .ok Option.none) :
    v.Course change (Action.run (pure Option.none >>= next) w) := by
  rw [pure_bind, h.none w hpage]
  exact .of_showsPage hpage Visiting.makesPage_render Visiting.showsPage_render hchange

/-! ## What a visit asks for -/

/-- The user whose address and password came with the request. -/
def credited? (v : Visit) : Option User :=
  (v.stores.directory.findByEmail v.email).filter fun user =>
    v.stores.directory.verify user v.password

/-- The fields of the form to log in. -/
def loginFields (v : Visit) : List (Text × Form.Entry) :=
  [("Email", .ofRules v.email [.isEmail, .required])]

/-- The fields of the form to register. -/
def registerFields (v : Visit) : List (Text × Form.Entry) :=
  [("Email", .ofRules v.email [.required, .isEmail]),
    ("Password", .password v.password
      [.mustMatchPassword (v.request.inputOr "verify_password" "")])]

/-- Whether a form was sent whose fields keep their rules. -/
def sends (v : Visit) (fields : List (Text × Form.Entry)) : Bool :=
  v.request.submitted && fields.all fun field => field.2.isKept

end Visit

namespace Auth

open Visit Visiting

/-- The visit after logging in, for who has sent the right password. -/
def loginChange (v : Visit) : Option Visit :=
  if v.sends v.loginFields then v.credited?.map v.loggedInAs else none

/-- The visit after an account was made, for who has sent a free address. -/
def registerChange (v : Visit) : Except Abort (Option Visit) :=
  if v.sends v.registerFields then
    match v.stores.directory.findByEmail v.email with
    | some _ => .ok none
    | none =>
      (v.stores.directory.create v.email v.password).map fun made =>
        some (v.withDirectory made.2)
  else .ok none

/-- Whether a visit is denied: users who are logged in can only log out. -/
def denies (v : Visit) : Bool :=
  v.user.isLoggedIn && v.route.module ≠ some ("logout" : Text)

/-- What a visit asks of the controller of accounts: the visit after it, if there is anything to
be done. -/
def change (v : Visit) : Except Abort (Option Visit) :=
  if denies v then .ok none
  else
    match v.route.module with
    | none => .ok (loginChange v)
    | some name =>
      if name = "login" then .ok (loginChange v)
      else if name = "register" then registerChange v
      else if name = "logout" then .ok (some v.loggedOut)
      else .ok none

/-! ## The modules of the controller of accounts -/

variable {v w : Visit} {next : Option Outcome → Visiting Outcome}

/-- The fields of both forms can be checked. -/
theorem isSure_fields :
    (∀ field ∈ v.loginFields, ∀ rule ∈ field.2.rules, rule.IsSure) ∧
      ∀ field ∈ v.registerFields, ∀ rule ∈ field.2.rules, rule.IsSure := by
  constructor
  · intro field hfield
    rw [List.mem_singleton.mp hfield]
    exact Form.Entry.isSure_ofRules _ (by simp [Rule.IsSure])
  · intro field hfield
    rcases List.mem_pair.mp hfield with rfl | rfl
    · exact Form.Entry.isSure_ofRules _ (by simp [Rule.IsSure])
    · exact Form.Entry.isSure_password _ (by simp [Rule.IsSure])

/-- The user whose address and password were sent is found by both. -/
theorem run_verified (h : v.stores.Reached) (hpage : v.OnlyPage w) :
    Action.run (verified v.email v.password) w = (.ok v.credited?, w) := by
  unfold verified credited?
  simp only [Action.run_bind_of_ok (run_lookUp (hpage.reached h) _), hpage.directory_eq]
  cases hfound : v.stores.directory.findByEmail v.email with
  | none => rfl
  | some user =>
      simp only [Action.run_bind_of_ok (run_lookUp (hpage.reached h) _), hpage.directory_eq]
      by_cases hverify : v.stores.directory.verify user v.password = true
      · rw [if_pos hverify, Option.filter_some, if_pos hverify]
        rfl
      · rw [if_neg hverify, Option.filter_some, if_neg hverify]
        rfl

/-- A form that was sent is checked, and messages are shown if its fields break rules. -/
theorem course_checkFields (fields : List (Text × Form.Entry)) {done : Handler}
    {change : Except Abort (Option Visit)} (hnext : v.Continues next) (hpage : v.OnlyPage w)
    (hnames : (fields.map Prod.fst).Nodup)
    (hsure : ∀ field ∈ fields, ∀ rule ∈ field.2.rules, rule.IsSure)
    (hbroken : (fields.all fun field => field.2.isKept) = false → change = .ok none)
    (hdone : (fields.all fun field => field.2.isKept) = true →
      v.Course change (Action.run (done >>= next) w)) :
    v.Course change (Action.run ((do
      let messages ← checkFields fields
      if messages.isEmpty then done else some <$> errorDisplay messages) >>= next) w) := by
  obtain ⟨messages, hrun, hempty⟩ := run_checkFields hnames hsure w
  rw [bind_assoc, Action.run_bind_of_ok hrun]
  cases hkept : fields.all fun field => field.2.isKept with
  | true =>
      rw [if_pos (hempty.trans hkept)]
      exact hdone hkept
  | false =>
      rw [if_neg (by rw [hempty, hkept]; decide), hnext.some_bind]
      exact .of_showsPage hpage (makesPage_errorDisplay _) (showsPage_errorDisplay _)
        (hbroken hkept)

/-- The page after something was done links to another one. -/
theorem course_success {change : Except Abort (Option Visit)} {v' : Visit}
    (hnext : v.Continues next) (hchange : change = .ok (some v')) (hpage : v'.OnlyPage w)
    (path title message : Text) (text : Text) :
    v.Course change (Action.run ((do
      let address ← link path
      some <$> successPage title message (some (address, text))) >>= next) w) := by
  have hlink : Action.run (link path) w = (.ok (w.router.link path), w) := rfl
  rw [bind_assoc, Action.run_bind_of_ok hlink, hnext.some_bind]
  exact .changed hchange hpage rfl

/-- Who is not logged in is logged in by the right password. -/
theorem course_login (h : v.stores.Reached) (hnext : v.Continues next) :
    v.Course (.ok (loginChange v)) (Action.run (login >>= next) v) := by
  rw [login, bind_assoc]
  apply Course.after (.refl v) (makesPage_showForm _ _ _) (failsBy_showForm _ _ _)
  intro _ w hpage
  rw [bind_assoc, Action.run_bind_of_ok (Action.run_get w), hpage.request_eq]
  dsimp only
  cases hsubmitted : v.request.submitted with
  | false =>
      apply hnext.course_none hpage
      rw [loginChange, sends, hsubmitted, Bool.false_and, if_neg Bool.false_ne_true]
  | true =>
      obtain ⟨w', hrun, hsent⟩ := run_sentEmail w
      rw [hpage.request_eq] at hrun
      rw [if_pos rfl, bind_assoc, Action.run_bind_of_ok hrun]
      replace hpage := hpage.trans hsent
      apply course_checkFields v.loginFields hnext hpage
        (List.nodup_singleton _) isSure_fields.1
      · intro hbroken
        rw [loginChange, sends, hbroken, Bool.and_false, if_neg Bool.false_ne_true]
      · intro hkept
        have hchange : loginChange v = v.credited?.map v.loggedInAs := by
          rw [loginChange, sends, hsubmitted, hkept, Bool.true_and, if_pos rfl]
        rw [bind_assoc]
        change v.Course _ (Action.run (verified v.email v.password >>= _) w')
        rw [Action.run_bind_of_ok (run_verified h hpage), hchange]
        cases v.credited? with
        | none =>
            rw [hnext.some_bind]
            exact .of_showsPage hpage (makesPage_errorDisplay _) (showsPage_errorDisplay _) rfl
        | some user =>
            rw [bind_assoc, Action.run_bind_of_ok (run_logIn (hpage.reached h) user)]
            exact course_success hnext rfl (hpage.loggedInAs user) _ _ _ _

/-- An account is made for a free address, unless no number is left. -/
theorem course_created (h : v.stores.Reached) (hnext : v.Continues next) (hpage : v.OnlyPage w)
    (hsends : v.sends v.registerFields = true) (refused title message text : Text) :
    v.Course (registerChange v) (Action.run ((do
      match ← created v.email v.password with
      | some _ =>
        let address ← link "login"
        some <$> successPage title message (some (address, text))
      | none => some <$> errorDisplay [refused]) >>= next) w) := by
  have hasked := hpage.reached h
  unfold registerChange created
  rw [if_pos hsends]
  simp only [bind_assoc, Action.run_bind_of_ok (run_lookUp hasked _), hpage.directory_eq]
  cases hfound : v.stores.directory.findByEmail v.email with
  | some user =>
      simp only [pure_bind]
      rw [hnext.some_bind]
      exact .of_showsPage hpage (makesPage_errorDisplay _) (showsPage_errorDisplay _) rfl
  | none =>
      cases hcreate : v.stores.directory.create v.email v.password with
      | error abort =>
          have hrun : Action.run (askDirectory fun directory =>
              directory.create v.email v.password) w = (.error (.abort abort), w) :=
            run_askDirectory_of_error hasked (by rw [hpage.directory_eq, hcreate])
          simp only [bind_assoc, Action.run_bind_of_error hrun]
          exact .full rfl rfl hpage
      | ok made =>
          obtain ⟨user, directory⟩ := made
          have hrun : Action.run (askDirectory fun directory =>
              directory.create v.email v.password) w = (.ok user, w.withDirectory directory) :=
            run_askDirectory_of_ok hasked (by rw [hpage.directory_eq, hcreate])
          simp only [bind_assoc, Action.run_bind_of_ok hrun, pure_bind]
          rw [← bind_assoc]
          exact course_success hnext rfl (hpage.withDirectory directory) _ _ _ _

/-- Who registers gets an account for a free address. -/
theorem course_register (h : v.stores.Reached) (hnext : v.Continues next) :
    v.Course (registerChange v) (Action.run (register >>= next) v) := by
  rw [register, bind_assoc]
  apply Course.after (.refl v) (makesPage_showForm _ _ _) (failsBy_showForm _ _ _)
  intro _ w hpage
  rw [bind_assoc, Action.run_bind_of_ok (Action.run_get w), hpage.request_eq]
  dsimp only
  cases hsubmitted : v.request.submitted with
  | false =>
      apply hnext.course_none hpage
      rw [registerChange, sends, hsubmitted, Bool.false_and, if_neg Bool.false_ne_true]
  | true =>
      obtain ⟨w', hrun, hsent⟩ := run_sentEmail w
      rw [hpage.request_eq] at hrun
      rw [if_pos rfl, bind_assoc, Action.run_bind_of_ok hrun]
      replace hpage := hpage.trans hsent
      have hnames : (v.registerFields.map Prod.fst).Nodup := by
        change [("Email" : Text), "Password"].Nodup
        decide
      apply course_checkFields v.registerFields hnext hpage hnames isSure_fields.2
      · intro hbroken
        rw [registerChange, sends, hbroken, Bool.and_false, if_neg Bool.false_ne_true]
      · intro hkept
        have hsends : v.sends v.registerFields = true := by
          rw [sends, hsubmitted, hkept, Bool.and_true]
        exact course_created h hnext hpage hsends _ _ _ _

/-- Who logs out has no session any more. -/
theorem course_logout (h : v.stores.Reached) (hnext : v.Continues next) :
    v.Course (.ok (some v.loggedOut)) (Action.run (logout >>= next) v) := by
  rw [logout, bind_assoc, Action.run_bind_of_ok (run_logOut h)]
  exact course_success hnext rfl (.refl _) _ _ _ _

/-! ## The controller of accounts -/

/-- The module of the controller that a route names decides what is done. -/
theorem course_handler (h : v.stores.Reached) (hnext : v.Continues next)
    (hallowed : denies v = false) {name : Text} (hmodule : v.route.module = some name) :
    v.Course (change v) (Action.run (controller.handler v.route >>= next) v) := by
  unfold change Controller.handler
  rw [hallowed, if_neg Bool.false_ne_true, hmodule]
  dsimp only [Option.bind_some]
  by_cases hlogin : name = "login"
  · subst hlogin
    exact course_login h hnext
  rw [if_neg hlogin]
  by_cases hregister : name = "register"
  · subst hregister
    exact course_register h hnext
  rw [if_neg hregister]
  by_cases hlogout : name = "logout"
  · subst hlogout
    exact course_logout h hnext
  have hnone : controller.handlers.lookup name = none := by
    simp only [controller, handlers, List.lookup, beq_false_of_ne hlogin,
      beq_false_of_ne hregister, beq_false_of_ne hlogout]
  rw [if_neg hlogout, hnone]
  exact hnext.course_none (.refl v) rfl

/-- A visit ends with the outcome of its handler, or else with its page. -/
def finish : Option Outcome → Visiting Outcome
  | some outcome => pure outcome
  | none => render

/-- A visit that names no module ends with the outcome of logging in, or else as the others. -/
def conclude : Option Outcome → Visiting Outcome
  | some outcome => pure outcome
  | none => do controller.handler (← get).route >>= finish

/-- The controller of accounts denies its page, or lets the module of the route answer. -/
theorem run_serve (v : Visit) : Action.run controller.serve v = Action.run
    (if denies v then errorPage "Denied" "Permission denied" none
      else if v.route.module.isNone then login >>= conclude
      else controller.handler v.route >>= finish) v := by
  have hserve : controller.serve = before >>= conclude := rfl
  rw [hserve, before, bind_assoc, Action.run_bind_of_ok (Action.run_get v)]
  show Action.run ((if denies v then some <$> errorPage "Denied" "Permission denied" none
    else if v.route.module.isNone then login else pure none) >>= conclude) v = _
  split_ifs
  · rw [bind_map_left]
    exact congrArg (Action.run · v) (bind_pure _)
  · rfl
  · rw [pure_bind, conclude, Action.run_bind_of_ok (Action.run_get v)]

/-- **The controller of accounts does what a visit asks for.** -/
theorem course_serve (h : v.stores.Reached) :
    v.Course (change v) (Action.run controller.serve v) := by
  rw [run_serve]
  cases hdenies : denies v with
  | true =>
      rw [if_pos rfl]
      apply Course.of_showsPage (.refl v) (makesPage_errorPage _ _ _) (showsPage_errorPage _ _ _)
      rw [change, hdenies, if_pos rfl]
  | false =>
      rw [if_neg Bool.false_ne_true]
      cases hmodule : v.route.module with
      | none =>
          -- without a module somebody logs in before there is a page
          have hconclude : v.Continues conclude := by
            refine ⟨fun outcome => rfl, ?_⟩
            intro w hpage
            have hnone : controller.handler w.route = pure none := by
              rw [hpage.route_eq, Controller.handler, hmodule]
              rfl
            rw [conclude, Action.run_bind_of_ok (Action.run_get w), hnone]
            rfl
          have hchange : change v = .ok (loginChange v) := by
            rw [change, hdenies, if_neg Bool.false_ne_true, hmodule]
          rw [Option.isNone_none, if_pos rfl, hchange]
          exact course_login h hconclude
      | some name =>
          rw [Option.isNone_some, if_neg Bool.false_ne_true]
          exact course_handler h ⟨fun outcome => rfl, fun w hpage => rfl⟩ hdenies hmodule

/-! ## The three ways in which something is done -/

/-- A user is the one whose address and password came with the request. -/
theorem credited?_eq_some_iff {user : User} :
    v.credited? = some user ↔ v.stores.directory.findByEmail v.email = some user ∧
      v.stores.directory.verify user v.password = true := by
  rw [credited?, Option.filter_eq_some_iff]

/-- Logging in takes a form that keeps its rules and the right password. -/
theorem loginChange_eq_some_iff {v' : Visit} :
    loginChange v = some v' ↔ v.sends v.loginFields = true ∧
      ∃ user, v.credited? = some user ∧ v.loggedInAs user = v' := by
  unfold loginChange
  cases v.sends v.loginFields with
  | false => simp
  | true => rw [if_pos rfl, Option.map_eq_some_iff, eq_self, true_and]

/-- Registering takes a form that keeps its rules, a free address, and a number that is left. -/
theorem registerChange_eq_ok_some_iff {v' : Visit} :
    registerChange v = .ok (some v') ↔ v.sends v.registerFields = true ∧
      v.stores.directory.findByEmail v.email = none ∧
      ∃ user directory, v.stores.directory.create v.email v.password = .ok (user, directory) ∧
        v.withDirectory directory = v' := by
  unfold registerChange
  cases v.sends v.registerFields with
  | false => simp
  | true =>
      rw [if_pos rfl]
      cases v.stores.directory.findByEmail v.email with
      | some user => simp
      | none =>
          rcases v.stores.directory.create v.email v.password with abort | ⟨user, directory⟩
          · simp [Except.map]
          · simp [Except.map]

/-- Registering that can not be done finds no number for the account. -/
theorem create_eq_of_registerChange_eq_error {abort : Abort} (h : registerChange v = .error abort) :
    v.stores.directory.create v.email v.password = .error abort := by
  unfold registerChange at h
  split_ifs at h
  split at h
  · contradiction
  · cases hcreate : v.stores.directory.create v.email v.password with
    | error problem =>
        rw [hcreate] at h
        rw [← Except.error.inj h]
    | ok made =>
        rw [hcreate] at h
        contradiction

/-- Whoever is not denied is not logged in, or logs out. -/
theorem isLoggedIn_eq_false (hdenies : denies v = false)
    (hmodule : v.route.module ≠ some ("logout" : Text)) : v.user.isLoggedIn = false := by
  cases hlogged : v.user.isLoggedIn with
  | false => rfl
  | true =>
      rw [denies, hlogged, Bool.true_and, decide_eq_false_iff_not] at hdenies
      exact absurd hmodule hdenies

/-- What is done for a visit, if anything is: who is not logged in logs in, an account is made, or
the session ends. -/
theorem change_cases {v' : Visit} (h : change v = .ok (some v')) :
    (v.user.isLoggedIn = false ∧ loginChange v = some v') ∨
      registerChange v = .ok (some v') ∨ v' = v.loggedOut := by
  unfold change at h
  cases hdenies : denies v with
  | true =>
      rw [hdenies, if_pos rfl] at h
      exact absurd (Except.ok.inj h) nofun
  | false =>
      rw [hdenies, if_neg Bool.false_ne_true] at h
      cases hmodule : v.route.module with
      | none =>
          rw [hmodule] at h
          refine Or.inl ⟨isLoggedIn_eq_false hdenies ?_, Except.ok.inj h⟩
          rw [hmodule]
          exact nofun
      | some name =>
          rw [hmodule] at h
          dsimp only at h
          split_ifs at h with hlogin hregister hlogout
          · refine Or.inl ⟨isLoggedIn_eq_false hdenies ?_, Except.ok.inj h⟩
            rw [hmodule, hlogin]
            decide
          · exact Or.inr (Or.inl h)
          · exact Or.inr (Or.inr (Option.some.inj (Except.ok.inj h)).symm)
          · exact absurd (Except.ok.inj h) nofun

/-- What can not be done is to make an account. -/
theorem registerChange_eq_error {abort : Abort} (h : change v = .error abort) :
    registerChange v = .error abort := by
  unfold change at h
  split_ifs at h
  split at h
  · contradiction
  · split_ifs at h
    exact h

end Auth

/-! ## The controllers of every site -/

/-- The controller of the index page shows it. -/
theorem Controller.course_index (v : Visit) :
    v.Course (.ok none) (Action.run Controller.index.serve v) := by
  have hprepare : FailsBy Halt.IsOfViews Controller.index.prepare :=
    (Visiting.failsBy_setTemplate _).bind fun _ => Visiting.failsBy_modify _
  have hmakes : Visiting.MakesPage Controller.index.prepare :=
    (Visiting.makesPage_setTemplate _).bind fun _ => Visiting.makesPage_set _ _
  apply Visit.Course.after (.refl v) hmakes hprepare
  intro _ w hpage
  have hhandler : Controller.index.handler w.route = pure none := by
    unfold Controller.handler
    cases w.route.module <;> rfl
  have hbefore : Action.run Controller.index.before w = (.ok none, w) := rfl
  rw [Action.run_bind_of_ok hbefore]
  dsimp only
  rw [Action.run_bind_of_ok (Action.run_get w), hhandler, pure_bind]
  exact .of_showsPage hpage Visiting.makesPage_render Visiting.showsPage_render rfl

/-- What a visit asks of the controllers that every site has. -/
def Visit.change (v : Visit) : Except Abort (Option Visit) :=
  if v.route.controller = some ("auth" : Text) then Auth.change v else .ok none

/-- What is done for a visit, if anything is, is done by the controller of accounts. -/
theorem Visit.change_eq_some {v v' : Visit} (h : v.change = .ok (some v')) :
    Auth.change v = .ok (some v') := by
  unfold change at h
  split_ifs at h
  · exact h
  · exact absurd (Except.ok.inj h) nofun

/-- What can not be done for a visit is to make an account. -/
theorem Visit.create_of_change {v : Visit} {abort : Abort} (h : v.change = .error abort) :
    v.stores.directory.create v.email v.password = .error abort := by
  unfold change at h
  split_ifs at h
  exact Auth.create_eq_of_registerChange_eq_error (Auth.registerChange_eq_error h)

/-- **A visit that takes its course does no more than `Visit.Served` says.** -/
theorem Visit.Course.served {v : Visit} {ended : Except Halt Outcome × Visit}
    (h : v.Course v.change ended) : v.Served ended.2 := by
  cases h with
  | broken hviews hended hpage => exact .page hpage
  | shown hchange hended hpage => exact .page hpage
  | full hchange hended hpage => exact .page hpage
  | @changed v' w title message link hchange hpage hended =>
      rw [hended]
      replace hpage := hpage.trans (Visiting.makesPage_successPage title message link w)
      rcases Auth.change_cases (change_eq_some hchange) with ⟨hguest, hlogin⟩ | hregister | rfl
      · obtain ⟨-, user, hcredited, rfl⟩ := Auth.loginChange_eq_some_iff.mp hlogin
        obtain ⟨hfound, hverified⟩ := Auth.credited?_eq_some_iff.mp hcredited
        exact .loggedIn user hguest hfound hverified hpage
      · obtain ⟨-, hfree, user, directory, hcreated, rfl⟩ :=
          Auth.registerChange_eq_ok_some_iff.mp hregister
        exact .registered user directory hfree hcreated hpage
      · exact .loggedOut hpage

namespace Site

/-- The controllers that every site has answer for the names that they are registered under. -/
theorem eq_of_controllerOf_builtin {registry : Registry Controller}
    (hbuiltin : Site.builtin = .ok registry) {route : Route} {controller : Controller}
    (h : registry.controllerOf route = .ok controller) :
    (route.controller = some ("auth" : Text) ∧ controller = Auth.controller) ∨
      (route.controller ≠ some ("auth" : Text) ∧ controller = Controller.index) := by
  obtain rfl : ([(("auth" : Text), ⟨["login", "logout", "register"], Auth.controller⟩),
      (("index" : Text), ⟨[], Controller.index⟩)] : Registry Controller) = registry :=
    Except.ok.inj hbuiltin
  cases hname : route.controller with
  | none =>
      simp only [Registry.controllerOf, hname] at h
      exact absurd h nofun
  | some name =>
      simp only [Registry.controllerOf, Table.get?, hname, Option.getD_some] at h
      split at h
      · rename_i registered hfound
        split_ifs at hfound h with hauth hvalid hindex
        · obtain rfl := Option.some.inj hfound
          rw [hauth]
          exact Or.inl ⟨rfl, (Except.ok.inj h).symm⟩
        · obtain rfl := Option.some.inj hfound
          refine Or.inr ⟨fun heq => hauth (Option.some.inj heq), (Except.ok.inj h).symm⟩
      · contradiction

/-- **The controllers that every site has do what a visit asks for.** -/
theorem course_of_builtin {registry : Registry Controller}
    (hbuiltin : Site.builtin = .ok registry) {v : Visit} {controller : Controller}
    (hcontroller : registry.controllerOf v.route = .ok controller) (h : v.stores.Reached) :
    v.Course v.change (Action.run controller.serve v) := by
  unfold Visit.change
  rcases eq_of_controllerOf_builtin hbuiltin hcontroller with ⟨hauth, rfl⟩ | ⟨hindex, rfl⟩
  · rw [if_pos hauth]
    exact Auth.course_serve h
  · rw [if_neg hindex]
    exact Controller.course_index v

end Site
end PageServer
