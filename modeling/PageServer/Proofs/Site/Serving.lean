/-
# What serving a request does

While both stores can be reached, a request can change more than the page of its
visit in three ways: somebody whose password was verified is logged in, an
account is made, or the session of the visit ends.

* `Visit.recognized`: the visit after it is known who makes the request
* `Visit.loggedInAs`, `Visit.loggedOut`: the visit after a session starts or ends
* `Visit.Served`: what one request does
-/
import PageServer.Proofs.Accounts.Sessions
import PageServer.Proofs.Site.Page

namespace PageServer

/-- Both the sessions and the accounts can be reached. -/
structure Stores.Reached (stores : Stores) : Prop where
  /-- The sessions can be reached. -/
  sessions : stores.sessionOutage = none
  /-- The accounts can be reached. -/
  directory : stores.directoryOutage = none

namespace Visit

/-- The visit with other sessions. -/
def withSessions (v : Visit) (sessions : Sessions) : Visit :=
  { v with stores := { v.stores with sessions } }

/-- The visit with other accounts. -/
def withDirectory (v : Visit) (directory : Directory) : Visit :=
  { v with stores := { v.stores with directory } }

end Visit

/-! ## Questions to stores that can be reached -/

namespace Visiting

variable {α : Type} {v : Visit}

/-- Sessions that can be reached answer. -/
theorem run_askSessions (h : v.stores.Reached) (ask : Sessions → α × Sessions) :
    Action.run (askSessions ask) v =
      (.ok (ask v.stores.sessions).1, v.withSessions (ask v.stores.sessions).2) := by
  simp only [askSessions, Action.run_mk, h.sessions, Visit.withSessions]

/-- Accounts that can be reached answer and stay as they are. -/
theorem run_lookUp (h : v.stores.Reached) (ask : Directory → α) :
    Action.run (lookUp ask) v = (.ok (ask v.stores.directory), v) := by
  unfold lookUp askDirectory
  rw [Action.run_mk]
  split
  · rename_i fault hfault
    rw [h.directory] at hfault
    contradiction
  · rfl

/-- Accounts that can be reached change as the answer says. -/
theorem run_askDirectory_of_ok (h : v.stores.Reached)
    {ask : Directory → Except Abort (α × Directory)} {answer : α} {directory : Directory}
    (hask : ask v.stores.directory = .ok (answer, directory)) :
    Action.run (askDirectory ask) v = (.ok answer, v.withDirectory directory) := by
  simp only [askDirectory, Action.run_mk, h.directory, hask, Visit.withDirectory]

/-- A question to the accounts that the program can not answer changes nothing. -/
theorem run_askDirectory_of_error (h : v.stores.Reached)
    {ask : Directory → Except Abort (α × Directory)} {abort : Abort}
    (hask : ask v.stores.directory = .error abort) :
    Action.run (askDirectory ask) v = (.error (.abort abort), v) := by
  simp only [askDirectory, Action.run_mk, h.directory, hask]

end Visiting

/-! ## The session of a visit -/

namespace Visit

/-- The visit after it is known who makes the request. -/
def recognized (v : Visit) : Visit :=
  match v.request.cookie? Visiting.sessionCookie with
  | none => v
  | some token =>
    let (owner, sessions) := v.stores.sessions.current token v.now
    let known := v.withSessions sessions
    match owner with
    | none => known
    | some id =>
      match v.stores.directory.findById id with
      | some user =>
        { known with user := { user with loggedIn := true }, session := some token }
      | none => { known with session := some token }

/-- The visit after a session of a user has started or gone on. -/
def loggedInAs (v : Visit) (user : User) : Visit :=
  let (token, sessions) := v.stores.sessions.update v.session user.id v.now
  { v.withSessions sessions with
    cookies := v.cookies ++ [Visiting.tokenCookie token (v.settings.sessionHours * 3600)]
    session := some token
    user := { user with loggedIn := true } }

/-- The visit after its session has ended. -/
def loggedOut (v : Visit) : Visit :=
  { v.withSessions ((v.session.map v.stores.sessions.remove).getD v.stores.sessions) with
    cookies := v.cookies ++ [Visiting.tokenCookie [] 0]
    session := none
    user := .guest }

variable {v v' : Visit}

/-- Finding out who makes a request leaves all but the sessions and the user. -/
theorem recognized_frame (v : Visit) :
    ∃ sessions user session,
      v.recognized = { v with stores := { v.stores with sessions }, user, session } := by
  unfold recognized
  split
  · exact ⟨_, _, _, rfl⟩
  · dsimp only
    split
    · exact ⟨_, _, _, rfl⟩
    · split <;> exact ⟨_, _, _, rfl⟩

/-- Finding out who makes a request leaves the accounts. -/
theorem directory_recognized (v : Visit) :
    v.recognized.stores.directory = v.stores.directory := by
  obtain ⟨sessions, user, session, hframe⟩ := v.recognized_frame
  rw [hframe]

/-- It stays where both stores can be reached. -/
theorem reached_recognized (h : v.stores.Reached) : v.recognized.stores.Reached := by
  obtain ⟨sessions, user, session, hframe⟩ := v.recognized_frame
  rw [hframe]
  exact ⟨h.sessions, h.directory⟩

/-- Finding out who makes a request asks for the user of its token. -/
theorem sessions_recognized {v : Visit} {token : Text}
    (hcookie : v.request.cookie? Visiting.sessionCookie = some token) :
    v.recognized.stores.sessions = (v.stores.sessions.current token v.now).2 := by
  unfold recognized
  rw [hcookie]
  dsimp only
  split
  · rfl
  · split <;> rfl

/-- Without a token there is nobody to find out about. -/
theorem recognized_of_cookie_eq_none {v : Visit}
    (hcookie : v.request.cookie? Visiting.sessionCookie = none) : v.recognized = v := by
  unfold recognized
  rw [hcookie]

/-- The session of a visit is that of the token that came with the request. -/
theorem cookie_of_session_recognized {v : Visit} (hnone : v.session = none) {token : Text}
    (h : v.recognized.session = some token) :
    v.request.cookie? Visiting.sessionCookie = some token := by
  unfold recognized at h
  split at h
  · rw [hnone] at h
    contradiction
  · rename_i own hcookie
    dsimp only at h
    split at h
    · change v.session = _ at h
      rw [hnone] at h
      contradiction
    · split at h
      · exact hcookie.trans h
      · exact hcookie.trans h

/-- The owner of a session that lasts is logged in. -/
theorem recognized_of_lasting {v : Visit} {token : Text} {session : Session} {user : User}
    (hcookie : v.request.cookie? Visiting.sessionCookie = some token)
    (hfind : v.stores.sessions.find? token = some session)
    (hlasts : v.now - session.updated ≤ v.stores.sessions.length)
    (huser : v.stores.directory.findById session.userId = some user) :
    v.recognized =
      { v.withSessions (v.stores.sessions.current token v.now).2 with
        user := { user with loggedIn := true }, session := some token } := by
  have howner := Sessions.current_eq_some_iff.mpr ⟨session, hfind, hlasts, rfl⟩
  simp only [recognized, hcookie, howner, huser]

/-- It is known who makes a request if both stores can be reached. -/
theorem run_recognize (h : v.stores.Reached) :
    Action.run Visiting.recognize v = (.ok (), v.recognized) := by
  unfold Visiting.recognize recognized
  rw [Action.run_bind_of_ok (Action.run_get v)]
  cases v.request.cookie? Visiting.sessionCookie with
  | none => rfl
  | some token =>
      rcases hcurrent : v.stores.sessions.current token v.now with ⟨owner, sessions⟩
      simp only [Action.run_bind_of_ok (Visiting.run_askSessions h _), hcurrent]
      have hknown : (v.withSessions sessions).stores.Reached := ⟨h.sessions, h.directory⟩
      cases owner with
      | none => rfl
      | some id =>
          simp only [Action.run_bind_of_ok (Visiting.run_lookUp hknown _)]
          have hsame : (v.withSessions sessions).stores.directory = v.stores.directory := rfl
          rw [hsame]
          cases v.stores.directory.findById id <;> rfl

/-- A user is logged in if both stores can be reached. -/
theorem run_logIn (h : v.stores.Reached) (user : User) :
    Action.run (Visiting.logIn user) v = (.ok (), v.loggedInAs user) := by
  unfold Visiting.logIn
  rw [Action.run_bind_of_ok (Action.run_get v),
    Action.run_bind_of_ok (Visiting.run_askSessions h _)]
  rfl

/-- The session of a visit ends if both stores can be reached. -/
theorem run_logOut (h : v.stores.Reached) :
    Action.run Visiting.logOut v = (.ok (), v.loggedOut) := by
  unfold Visiting.logOut loggedOut
  rw [Action.run_bind_of_ok (Action.run_get v)]
  cases v.session with
  | none => rfl
  | some token =>
      simp only [Action.run_bind_of_ok (Visiting.run_askSessions h _)]
      rfl

/-! ## What one request does -/

/-- The address for mail that comes with a request. -/
def email (v : Visit) : Text := Text.trim (v.request.inputOr "email" "")

/-- The password that comes with a request. -/
def password (v : Visit) : Text := v.request.inputOr "password" ""

/-- What serving a request does to a visit, besides making its page. -/
inductive Served (v : Visit) : Visit → Prop
  /-- Nothing else is done. -/
  | page {v' : Visit} (hpage : v.OnlyPage v') : Served v v'
  /-- Who was not logged in is logged in, since the password was that of the account. -/
  | loggedIn {v' : Visit} (user : User) (hguest : v.user.isLoggedIn = false)
      (hfound : v.stores.directory.findByEmail v.email = some user)
      (hverified : v.stores.directory.verify user v.password = true)
      (hpage : (v.loggedInAs user).OnlyPage v') : Served v v'
  /-- An account is made. -/
  | registered {v' : Visit} (user : User) (directory : Directory)
      (hfree : v.stores.directory.findByEmail v.email = none)
      (hcreated : v.stores.directory.create v.email v.password = .ok (user, directory))
      (hpage : (v.withDirectory directory).OnlyPage v') : Served v v'
  /-- The session ends. -/
  | loggedOut {v' : Visit} (hpage : v.loggedOut.OnlyPage v') : Served v v'

namespace OnlyPage

/-- The page of a visit does not matter to whether the stores can be reached. -/
theorem reached (h : v.OnlyPage v') (hv : v.stores.Reached) : v'.stores.Reached := by
  obtain ⟨_, _, _, rfl⟩ := h
  exact ⟨hv.sessions, hv.directory⟩

/-- The page of a visit does not matter to logging in. -/
theorem loggedInAs (h : v.OnlyPage v') (user : User) :
    (v.loggedInAs user).OnlyPage (v'.loggedInAs user) := by
  obtain ⟨views, title, template, rfl⟩ := h
  exact ⟨views, title, template, rfl⟩

/-- The page of a visit does not matter to making an account. -/
theorem withDirectory (h : v.OnlyPage v') (directory : Directory) :
    (v.withDirectory directory).OnlyPage (v'.withDirectory directory) := by
  obtain ⟨views, title, template, rfl⟩ := h
  exact ⟨views, title, template, rfl⟩

end OnlyPage

end Visit

end PageServer
